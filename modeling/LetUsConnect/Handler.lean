import LetUsConnect.Network.Response
import LetUsConnect.Parser

/-!
# The filesystem handler

`src/handler/http_handler.c`. The answers of the operating system are fields of
an `Environment`: what each `stat` of the run answers, whether `open` succeeds,
how much each `write` writes. They are not tied to each other, so that every
sequence of answers is covered, also one that no single state of a file system
gives.

`handleFilesystemRequest` is the list of the handler's actions. The facts after
it describe that list by the branch taken.
-/

namespace LetUsConnect

open CString

/-- The part of `struct stat` the handler reads. -/
structure FileStatus where
  /-- `S_ISDIR(st_mode)`. -/
  isDirectory : Bool
  /-- `st_size`, which is not negative. -/
  size : ℕ

/-- The answers of the operating system during one call of the handler. -/
structure Environment where
  /-- The text of the peer's address, when `getpeername` succeeds. -/
  peerAddress : Option Bytes
  /-- The answer of the `stat` with that number; `none` is -1. -/
  stat : ℕ → Bytes → Option FileStatus
  /-- The descriptor `open` returns; `none` is -1. -/
  openFile : Bytes → Option ℕ
  /-- What a file opened for reading holds at each offset. -/
  content : ℕ → UInt8
  /-- The number of bytes the `write` with that number writes; `none` is -1. -/
  write : ℕ → Option ℕ

/-- An operating system that refuses everything. -/
def idle : Environment where
  peerAddress := none
  stat := fun _ _ => none
  openFile := fun _ => none
  content := fun _ => 0
  write := fun _ => none

def getClientIp (env : Environment) : Bytes := env.peerAddress.getD (bytes "-")

/-- The extension `strrchr(path, '.')` points to, dot included. -/
def extension (path : Bytes) : Option Bytes :=
  if ch '.' ∈ path then some (ch '.' :: path.rtakeWhile (· != ch '.')) else none

def getMimeType (path : Bytes) : Bytes :=
  match extension path with
  | none => bytes "application/octet-stream"
  | some ext =>
      if strcaseeq ext (bytes ".html") || strcaseeq ext (bytes ".htm") then bytes "text/html"
      else if strcaseeq ext (bytes ".css") then bytes "text/css"
      else if strcaseeq ext (bytes ".js") then bytes "application/javascript"
      else if strcaseeq ext (bytes ".png") then bytes "image/png"
      else if strcaseeq ext (bytes ".jpg") || strcaseeq ext (bytes ".jpeg") then
        bytes "image/jpeg"
      else bytes "application/octet-stream"

/-- The value of `keep_alive`, which worker and handler each compute from the header. -/
def keepAlive (request : HTTPRequest) : Bool :=
  match request.header "connection" with
  | none => true
  | some value => !strcaseeq value (bytes "close")

/-- `sizeof(local_path)`. -/
def pathSize : ℕ := 512

/-- The first `local_path`. -/
def requestedPath (uri : Bytes) : Bytes := snprintf pathSize (bytes "public" ++ uri)

/-- The `local_path` tried when the first one is a directory. -/
def indexPath (localPath : Bytes) : Bytes :=
  let withSlash := if localPath.getLast? = some (ch '/') then localPath
    else strncat pathSize localPath (bytes "/")
  strncat pathSize withSlash (bytes "index.html")

/-- The `local_path` tried when nothing has the first name. -/
def htmlPath (localPath : Bytes) : Bytes := strncat pathSize localPath (bytes ".html")

/-- A second `stat` accepts everything but a directory. -/
def checkAgain (env : Environment) (localPath : Bytes) : Option (Bytes × FileStatus) :=
  match env.stat 1 localPath with
  | none => none
  | some status => if status.isDirectory then none else some (localPath, status)

/-- The file a `GET` or `HEAD` is about; `none` is the answer 404. -/
def resolvePath (env : Environment) (uri : Bytes) : Option (Bytes × FileStatus) :=
  match env.stat 0 (requestedPath uri) with
  | some status =>
      if status.isDirectory then checkAgain env (indexPath (requestedPath uri))
      else some (requestedPath uri, status)
  | none => checkAgain env (htmlPath (requestedPath uri))

/-- Whether the guard against path traversal rejects the `uri`. -/
def traverses (uri : Bytes) : Bool := (strstr uri (bytes "../")).isSome

/-- The file that collects the bodies of `POST` requests. -/
def postDataPath : Bytes := bytes "public/post_data.txt"

/-- `send_error` followed by the log call of the same branch. -/
def refuse (env : Environment) (request : HTTPRequest) (code : ℕ) : List Action :=
  sendError code ++
    [.logRequest (getClientIp env) request.method request.uri code (request.header "host")]

/-- The writing half of the `POST` branch. -/
def storeBody (env : Environment) (body : Bytes) : List Action :=
  .openFile postDataPath (env.openFile postDataPath) ::
    match env.openFile postDataPath with
    | none => []
    | some fileFd =>
        [.write fileFd body (env.write 0), .write fileFd (bytes "\n") (env.write 1),
          .closeFile fileFd]

/-- The `POST` branch. -/
def handlePost (env : Environment) (request : HTTPRequest) (uri : Bytes) : List Action :=
  match request.header "content-length" with
  | none => refuse env request 411
  | some _ =>
      let body := request.data.getD []
      [.printf (bytes "\n--- Received POST Payload data ---\n" ++ body ++
          bytes "\n----------------------------------\n"),
        .mkdir (bytes "public")] ++
      storeBody env body ++
      sendCreated uri (keepAlive request) ++
      [.logRequest (getClientIp env) request.method request.uri 201 (request.header "host")]

/-- The answer to a `GET` or `HEAD` once its file is opened. -/
def serveFile (env : Environment) (request : HTTPRequest) (isGet : Bool) (localPath : Bytes)
    (status : FileStatus) (fileFd : ℕ) : List Action :=
  [sendResponseHead (bytes "200") (bytes "OK") (getMimeType localPath) status.size none
    (keepAlive request)] ++
  (if isGet then [.sendFile env.content fileFd 0 status.size] else []) ++
  [.closeFile fileFd,
    .logRequest (getClientIp env) request.method request.uri 200 (request.header "host")]

/-- The branch on the result of `open`; `none` is -1. -/
def answerOpened (env : Environment) (request : HTTPRequest) (isGet : Bool) (localPath : Bytes)
    (status : FileStatus) : Option ℕ → List Action
  | none => refuse env request 403
  | some fileFd => serveFile env request isGet localPath status fileFd

/-- The `GET` and `HEAD` branch. -/
def handleFile (env : Environment) (request : HTTPRequest) (isGet : Bool) (uri : Bytes) :
    List Action :=
  match resolvePath env uri with
  | none => refuse env request 404
  | some (localPath, status) =>
      .openFile localPath (env.openFile localPath) ::
        answerOpened env request isGet localPath status (env.openFile localPath)

def handleFilesystemRequest (env : Environment) (request : HTTPRequest) : List Action :=
  match request.method, request.uri, request.httpVersion with
  | some method, some uri, some httpVersion =>
      if httpVersion ≠ bytes "HTTP/1.1" then refuse env request 505
      else if traverses uri then refuse env request 403
      else if method = bytes "POST" then handlePost env request uri
      else if method ≠ bytes "GET" ∧ method ≠ bytes "HEAD" then refuse env request 405
      else handleFile env request (method = bytes "GET") uri
  | _, _, _ => refuse env request 400

/-! ## The branches of the handler -/

/-- The request passes the checks every method is subject to. -/
structure Accepted (request : HTTPRequest) (uri : Bytes) : Prop where
  hasUri : request.uri = some uri
  hasVersion : request.httpVersion = some (bytes "HTTP/1.1")
  guarded : traverses uri = false

/-- The request takes the `POST` branch to its end. -/
structure StoresBody (request : HTTPRequest) (uri : Bytes) : Prop extends
    Accepted request uri where
  isPost : request.method = some (bytes "POST")
  declared : (request.header "content-length").isSome

/-- The request enters the `GET` and `HEAD` branch. -/
structure AsksForFile (request : HTTPRequest) (uri : Bytes) : Prop extends
    Accepted request uri where
  getOrHead : request.method = some (bytes "GET") ∨ request.method = some (bytes "HEAD")

/-- The statuses refused before a file is looked for. -/
def refusals : List ℕ := [400, 403, 405, 411, 505]

theorem handleFilesystemRequest_of_storesBody {request : HTTPRequest} {uri : Bytes}
    (stores : StoresBody request uri) (env : Environment) :
    handleFilesystemRequest env request = handlePost env request uri := by
  simp [handleFilesystemRequest, stores.isPost, stores.hasUri, stores.hasVersion, stores.guarded]

theorem handleFilesystemRequest_of_asksForFile {request : HTTPRequest} {uri : Bytes}
    (asks : AsksForFile request uri) (env : Environment) :
    handleFilesystemRequest env request =
      handleFile env request (request.method = some (bytes "GET")) uri := by
  have getNotPost : bytes "GET" ≠ bytes "POST" := by decide
  have headNotPost : bytes "HEAD" ≠ bytes "POST" := by decide
  rcases asks.getOrHead with isGet | isHead
  · simp [handleFilesystemRequest, isGet, asks.hasUri, asks.hasVersion, asks.guarded, getNotPost]
  · simp [handleFilesystemRequest, isHead, asks.hasUri, asks.hasVersion, asks.guarded, headNotPost]

/-- Every other request is refused, with a status that depends on the request alone. -/
theorem handleFilesystemRequest_otherwise {request : HTTPRequest}
    (storesNothing : ∀ uri, ¬StoresBody request uri)
    (asksNothing : ∀ uri, ¬AsksForFile request uri) :
    ∃ code ∈ refusals, ∀ env, handleFilesystemRequest env request = refuse env request code := by
  simp only [handleFilesystemRequest]
  split
  · next method uri httpVersion hasMethod hasUri hasVersion =>
      split_ifs with otherVersion climbs isPost otherMethod
      · exact ⟨505, by decide, fun _ => rfl⟩
      · exact ⟨403, by decide, fun _ => rfl⟩
      · have accepted : Accepted request uri :=
          ⟨hasUri, by rw [hasVersion, not_not.mp otherVersion], by simpa using climbs⟩
        have undeclared : request.header "content-length" = none := by
          rw [← Option.not_isSome_iff_eq_none]
          exact fun declared => storesNothing uri ⟨accepted, isPost ▸ hasMethod, declared⟩
        exact ⟨411, by decide, fun env => by simp only [handlePost, undeclared]⟩
      · exact ⟨405, by decide, fun _ => rfl⟩
      · have accepted : Accepted request uri :=
          ⟨hasUri, by rw [hasVersion, not_not.mp otherVersion], by simpa using climbs⟩
        refine absurd (⟨accepted, ?_⟩ : AsksForFile request uri) (asksNothing uri)
        rw [hasMethod, Option.some.injEq, Option.some.injEq]
        exact not_and_or.mp otherMethod |>.imp not_not.mp not_not.mp
  · exact ⟨400, by decide, fun _ => rfl⟩

/-- The handler stores a body, answers with a file or refuses. -/
theorem handleFilesystemRequest_cases (env : Environment) (request : HTTPRequest) :
    (∃ uri, StoresBody request uri ∧
        handleFilesystemRequest env request = handlePost env request uri) ∨
      (∃ uri, AsksForFile request uri ∧ handleFilesystemRequest env request =
        handleFile env request (request.method = some (bytes "GET")) uri) ∨
      ∃ code ∈ refusals, handleFilesystemRequest env request = refuse env request code := by
  by_cases stores : ∃ uri, StoresBody request uri
  · rcases stores with ⟨uri, stores⟩
    exact Or.inl ⟨uri, stores, handleFilesystemRequest_of_storesBody stores env⟩
  · by_cases asks : ∃ uri, AsksForFile request uri
    · rcases asks with ⟨uri, asks⟩
      exact Or.inr (Or.inl ⟨uri, asks, handleFilesystemRequest_of_asksForFile asks env⟩)
    · rcases handleFilesystemRequest_otherwise (not_exists.mp stores) (not_exists.mp asks) with
        ⟨code, used, refused⟩
      exact Or.inr (Or.inr ⟨code, used, refused env⟩)

end LetUsConnect
