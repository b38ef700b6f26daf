import LetUsConnect.Handler.ResponseHeads

/-!
# One answer to a request

Every exit of the handler sends one response head and makes one log call, and
writes the status twice, into the head and into the call. The head also
announces a length, which is the size of the file narrowed to an `int`; the same
narrowing is applied to the number of bytes that `send_file` is to send.
-/

namespace LetUsConnect

open CString

namespace Action

/-- The response heads among the actions. -/
def head : Action → Option Bytes
  | .sendHead buffer _ => some buffer
  | _ => none

/-- The statuses of the log calls among the actions. -/
def statusLogged : Action → Option ℕ
  | .logRequest _ _ _ statusCode _ => some statusCode
  | _ => none

/-- The `int` that each `send_file` among the actions receives as its length. -/
def fileCount : Action → Option ℤ
  | .sendFile _ _ _ size => some (toInt size)
  | _ => none

end Action

/-- The second word of a status line. -/
def headStatus (head : Bytes) : Bytes :=
  (head.drop (bytes "HTTP/1.1 ").length).takeWhile (!isBlank ·)

/-- The actions send one head and make one log call, with the same status. -/
structure AnswersOnce (actions : List Action) (statusCode : ℕ) (head : Bytes) : Prop where
  heads : actions.filterMap Action.head = [head]
  status : headStatus head = digits statusCode
  logged : actions.filterMap Action.statusLogged = [statusCode]

/-! ## The status of a head -/

theorem headStatus_headText {status : Bytes} (isWord : ∀ byte ∈ status, isBlank byte = false)
    (text contentType : Bytes) (contentLength : ℤ) (extra : Option Bytes) (keepAlive : Bool) :
    headStatus (headText status text contentType contentLength extra keepAlive) = status := by
  have passes : ∀ byte ∈ status, (!isBlank byte) = true := by
    intro byte member
    rw [isWord byte member]
    rfl
  have stops : ∀ rest : Bytes, (bytes " " ++ rest).takeWhile (!isBlank ·) = [] := fun _ => rfl
  rw [headStatus, headText, headLines, withLineEnds, List.flatMap_cons]
  simp only [List.append_assoc]
  rw [List.drop_left, List.takeWhile_append_of_pos passes, stops, List.append_nil]

theorem isBlank_of_mem_digits {value : ℕ} : ∀ byte ∈ digits value, isBlank byte = false := by
  intro byte member
  have digit := isdigit_of_mem_digits member
  rw [isBlank, beq_eq_false_iff_ne]
  rintro rfl
  exact absurd digit (by decide)

/-! ## One head and one log call -/

section Branches

variable {env : Environment} {request : HTTPRequest} {uri : Bytes}

theorem answers_refuse {code : ℕ} (used : code ∈ errorCodes) :
    AnswersOnce (refuse env request code) code (errorHead code) where
  heads := by rw [refuse, sendError_eq used]; rfl
  status := by
    rw [errorHead, decimal_natCast]
    exact headStatus_headText isBlank_of_mem_digits _ _ _ _ _
  logged := by rw [refuse, sendError_eq used]; rfl

theorem answers_handlePost (declared : (request.header "content-length").isSome) :
    AnswersOnce (handlePost env request uri) 201 (createdHead uri (keepAlive request)) := by
  rcases Option.isSome_iff_exists.mp declared with ⟨value, found⟩
  have parts : (handlePost env request uri).filterMap Action.head =
        [createdHead uri (keepAlive request)] ∧
      (handlePost env request uri).filterMap Action.statusLogged = [201] := by
    simp only [handlePost, found, storeBody, sendCreated_eq]
    cases env.openFile postDataPath with
    | none => exact ⟨rfl, rfl⟩
    | some fileFd => exact ⟨rfl, rfl⟩
  exact ⟨parts.1, @headStatus_headText (bytes "201") (@isBlank_of_mem_digits 201) _ _ _ _ _,
    parts.2⟩

theorem answers_serveFile (isGet : Bool) (localPath : Bytes) (status : FileStatus) (fileFd : ℕ) :
    AnswersOnce (serveFile env request isGet localPath status fileFd) 200
      (fileHead localPath status.size (keepAlive request)) where
  heads := by rw [serveFile_eq]; cases isGet <;> rfl
  status := @headStatus_headText (bytes "200") (@isBlank_of_mem_digits 200) _ _ _ _ _
  logged := by rw [serveFile_eq]; cases isGet <;> rfl

/-- An `open` sends and logs nothing. -/
theorem AnswersOnce.openFile {actions : List Action} {statusCode : ℕ} {head : Bytes}
    (answers : AnswersOnce actions statusCode head) (path : Bytes) (fileFd : Option ℕ) :
    AnswersOnce (.openFile path fileFd :: actions) statusCode head :=
  ⟨answers.heads, answers.status, answers.logged⟩

theorem answers_handleFile (isGet : Bool) :
    ∃ statusCode head, AnswersOnce (handleFile env request isGet uri) statusCode head := by
  rw [handleFile]
  cases resolvePath env uri with
  | none => exact ⟨404, _, answers_refuse (by decide)⟩
  | some found =>
      dsimp only
      cases env.openFile found.1 with
      | none => exact ⟨403, _, (answers_refuse (by decide)).openFile _ _⟩
      | some fileFd => exact ⟨200, _, (answers_serveFile isGet _ _ _).openFile _ _⟩

end Branches

/-- Every request is answered with one head and logged once, with the status of the head. -/
theorem one_head_one_log (env : Environment) (request : HTTPRequest) :
    ∃ statusCode head,
      (handleFilesystemRequest env request).filterMap Action.head = [head] ∧
      headStatus head = digits statusCode ∧
      (handleFilesystemRequest env request).filterMap Action.statusLogged = [statusCode] := by
  have answers : ∃ statusCode head,
      AnswersOnce (handleFilesystemRequest env request) statusCode head := by
    rcases handleFilesystemRequest_cases env request with
      ⟨uri, stores, handled⟩ | ⟨uri, asks, handled⟩ | ⟨code, used, handled⟩
    · rw [handled]
      exact ⟨201, _, answers_handlePost stores.declared⟩
    · rw [handled]
      exact answers_handleFile _
    · rw [handled]
      exact ⟨code, _, answers_refuse (List.mem_cons_of_mem _ used)⟩
  rcases answers with ⟨statusCode, head, answers⟩
  exact ⟨statusCode, head, answers.heads, answers.status, answers.logged⟩

/-! ## The announced length -/

/-- The text of the header line that begins with `name`. -/
def headerValue (name head : Bytes) : Option Bytes :=
  ((tokens isLineEnd head).find? name.isPrefixOf).map (·.drop name.length)

/-- The head announces `size` bytes, and exactly a `GET` is to send as many. -/
def LengthsExact (isGet : Bool) (size : ℕ) (actions : List Action) : Prop :=
  (actions.filterMap Action.head).map (headerValue (bytes "Content-Length: ")) =
      [some (digits size)] ∧
    actions.filterMap Action.fileCount = if isGet then [(size : ℤ)] else []

/-- The length is the fourth line of every head. -/
theorem headerValue_headText {status text contentType : Bytes} (statusIsLine : IsLine status)
    (textIsLine : IsLine text) (typeIsLine : IsLine contentType) (contentLength : ℤ)
    (extra : Option Bytes) (keepAlive : Bool) :
    headerValue (bytes "Content-Length: ")
        (headText status text contentType contentLength extra keepAlive) =
      some (decimal (toInt contentLength)) := by
  rw [headerValue, tokens_headText statusIsLine textIsLine typeIsLine]
  rfl

theorem toInt_natCast_eq_iff {size : ℕ} : toInt size = size ↔ size < 2 ^ 31 := by
  constructor
  · intro same
    have bounds := toInt_bounds size
    omega
  · intro small
    exact toInt_eq_self (by omega) (by omega)

theorem lengthsExact_serveFile_iff {env : Environment} {request : HTTPRequest} {isGet : Bool}
    {localPath : Bytes} {status : FileStatus} {fileFd : ℕ} :
    LengthsExact isGet status.size (serveFile env request isGet localPath status fileFd) ↔
      status.size < 2 ^ 31 := by
  have announced := @headerValue_headText (bytes "200") (bytes "OK") _ (by decide)
    (by decide) (mimeType_parts localPath).1 status.size none (keepAlive request)
  have counts : (serveFile env request isGet localPath status fileFd).filterMap Action.fileCount =
      if isGet then [toInt status.size] else [] := by
    rw [serveFile_eq]
    cases isGet <;> rfl
  rw [LengthsExact, (answers_serveFile isGet localPath status fileFd).heads, counts, fileHead,
    List.map_singleton, announced, List.singleton_inj, Option.some_inj, decimal_eq_digits_iff,
    toInt_natCast_eq_iff]
  constructor
  · exact fun exact_ => exact_.1
  · intro small
    exact ⟨small, by rw [toInt_natCast_eq_iff.mpr small]⟩

/--
The length of a file that is served is announced and handed to `send_file` as it
is exactly when an `int` can hold it.
-/
theorem lengthsExact_iff {env : Environment} {request : HTTPRequest} {uri localPath : Bytes}
    {status : FileStatus} {fileFd : ℕ} (asks : AsksForFile request uri)
    (resolved : resolvePath env uri = some (localPath, status))
    (opened : env.openFile localPath = some fileFd) :
    LengthsExact (request.method = some (bytes "GET")) status.size
        (handleFilesystemRequest env request) ↔ status.size < 2 ^ 31 := by
  rw [handleFilesystemRequest_of_asksForFile asks, handleFile, resolved]
  dsimp only
  rw [opened]
  exact lengthsExact_serveFile_iff

/-- An operating system in which every path names a file of that size. -/
def filesOfSize (size : ℕ) : Environment :=
  { idle with stat := fun _ _ => some ⟨false, size⟩, openFile := fun _ => some 3 }

def pageRequest : HTTPRequest := httpRequestConstructor (bytes "GET /a HTTP/1.1\r\n\r\n")

theorem pageRequest_asks : AsksForFile pageRequest (bytes "/a") :=
  ⟨⟨by decide, by decide, by decide⟩, by decide⟩

theorem pageRequest_lengthsExact :
    LengthsExact (pageRequest.method = some (bytes "GET")) 5
        (handleFilesystemRequest (filesOfSize 5) pageRequest) ↔ 5 < 2 ^ 31 :=
  @lengthsExact_iff (filesOfSize 5) pageRequest (bytes "/a") (bytes "public/a") ⟨false, 5⟩ 3
    pageRequest_asks rfl rfl

/-- A file of 2 GiB is announced with a negative length. -/
theorem hugeFile_misannounced :
    ¬∀ (size : ℕ), size < 2 ^ 63 → ∀ (env : Environment) (request : HTTPRequest)
        (uri localPath : Bytes) (status : FileStatus) (fileFd : ℕ), status.size = size →
        AsksForFile request uri → resolvePath env uri = some (localPath, status) →
        env.openFile localPath = some fileFd →
        LengthsExact (request.method = some (bytes "GET")) size
          (handleFilesystemRequest env request) := by
  intro always
  have exact_ := always (2 ^ 31) (by decide) (filesOfSize (2 ^ 31)) pageRequest (bytes "/a")
    (bytes "public/a") ⟨false, 2 ^ 31⟩ 3 rfl pageRequest_asks rfl rfl
  rw [handleFilesystemRequest_of_asksForFile pageRequest_asks] at exact_
  have small : 2 ^ 31 < 2 ^ 31 := lengthsExact_serveFile_iff.mp exact_
  omega

end LetUsConnect
