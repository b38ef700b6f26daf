import LetUsConnect.Lib.Readers
import LetUsConnect.Connection.WirePrefix
import LetUsConnect.Handler.Answers
import LetUsConnect.Parser.RoundTrip

/-!
# What a client reads

A client takes the answers off its socket one after the other: a head up to the
first empty line, and as many bytes as the head announces unless it asked for the
head alone. `RequestMessage.answer` says what the server means to answer to a
request; the bytes it sends are that answer for such a client.

Excepted are the answers known to be cut short or to be longer than a client
expects: a file of 2 GiB or more, a long `Location`, and the page sent with an
error in answer to a `HEAD`.
-/

namespace LetUsConnect

open CString HTTPRequest Readers

/-- An answer as a client understands it. -/
structure Response where
  status : ℕ
  body : Bytes
  deriving DecidableEq

/-- The length a head announces. -/
def announcedLength (head : Bytes) : Option ℕ :=
  (headerValue (bytes "Content-Length: ") head).bind fun value =>
    if value.all isdigit then some (decimalValue value) else none

/-- Takes one answer off what the socket has brought. -/
def readResponse (headOnly : Bool) : Reader UInt8 Response := fun text =>
  (strstr text headersEnd).bind fun headersEnd' =>
    let head := text.take (headersEnd' + 4)
    let rest := text.drop (headersEnd' + 4)
    (announcedLength head).bind fun announced =>
      let length := if headOnly then 0 else announced
      if length ≤ rest.length then
        some (⟨decimalValue (headStatus head), rest.take length⟩, rest.drop length)
      else none

/-! ## Heads -/

/-- A head that ends with its first empty line and announces a status and a length. -/
structure Announces (head : Bytes) (statusCode length : ℕ) : Prop where
  ends : ∃ headersEnd', head.length = headersEnd' + 4 ∧
    ∀ rest, strstr (head ++ rest) headersEnd = some headersEnd'
  status : headStatus head = digits statusCode
  length : announcedLength head = some length

theorem withLineEnds_cons (line : Bytes) (lines : List Bytes) :
    withLineEnds (line :: lines) ++ crlf = line ++ laterLines lines ++ headersEnd := by
  have rotated := crlf_append_flatMap lines
  rw [withLineEnds, List.flatMap_cons, List.append_assoc line, rotated, headersEnd]
  simp only [List.append_assoc]

/-- A well-formed head has no empty line before its end. -/
theorem WellFormedHead.ends {uri : Option Bytes} {head : Bytes}
    (wellFormed : WellFormedHead uri head) :
    ∃ headersEnd', head.length = headersEnd' + 4 ∧
      ∀ rest, strstr (head ++ rest) headersEnd = some headersEnd' := by
  rcases wellFormed with ⟨statusLine, headers, layout⟩
  have named : ∀ header ∈ headers, header ≠ [] := by
    intro header member
    have isName : headerName header ∈ formatHeaders ++ [bytes "Location"] := by
      have mapped := List.mem_map_of_mem (f := headerName) member
      by_cases created : createdStatus <+: statusLine
      · rwa [(layout.created created).1] at mapped
      · rw [layout.plain created] at mapped
        exact List.mem_append_left _ mapped
    rintro rfl
    exact absurd isName (by decide)
  have whole : head = statusLine ++ laterLines headers ++ headersEnd := by
    rw [layout.layout, withLineEnds_cons]
  refine ⟨(statusLine ++ laterLines headers).length, ?_, ?_⟩
  · rw [whole, List.length_append]
    rfl
  · intro rest
    rw [whole, List.append_assoc _ headersEnd]
    apply strstr_headersEnd (layout.isLine _ List.mem_cons_self).1
    intro header member
    exact ⟨named header member, (layout.isLine _ (List.mem_cons_of_mem _ member)).1⟩

theorem all_isdigit_digits (value : ℕ) : (digits value).all isdigit := by
  rw [List.all_eq_true]
  exact fun _ member => isdigit_of_mem_digits member

theorem announcedLength_headText {status text contentType : Bytes} (statusIsLine : IsLine status)
    (textIsLine : IsLine text) (typeIsLine : IsLine contentType) {length : ℕ}
    (small : length < 2 ^ 31) (extra : Option Bytes) (keepAlive : Bool) :
    announcedLength (headText status text contentType length extra keepAlive) = some length := by
  rw [announcedLength, headerValue_headText statusIsLine textIsLine typeIsLine,
    toInt_natCast_eq_iff.mpr small, decimal_natCast, Option.bind_some,
    if_pos (all_isdigit_digits length), decimalValue_digits]

theorem length_errorBody_lt {code : ℕ} (used : code ∈ errorCodes) :
    (errorBody code).length < 2 ^ 31 := by
  have short : ∀ code ∈ errorCodes, (errorBody code).length < 2 ^ 31 := by decide
  exact short code used

theorem announces_errorHead {code : ℕ} (used : code ∈ errorCodes) :
    Announces (errorHead code) code (errorBody code).length where
  ends := (wellFormedHead_errorHead used none).ends
  status := by
    rw [errorHead, decimal_natCast]
    exact headStatus_headText isBlank_of_mem_digits _ _ _ _ _
  length := by
    have parts : ∀ code ∈ errorCodes, IsLine (errorText code) := by decide
    exact announcedLength_headText (isLine_decimal _) (parts code used) (by decide)
      (length_errorBody_lt used) _ _

theorem announces_fileHead (path : Bytes) {size : ℕ} (small : size < 2 ^ 31) (keepAlive : Bool) :
    Announces (fileHead path size keepAlive) 200 size where
  ends := (wellFormedHead_fileHead path size keepAlive none).ends
  status := @headStatus_headText (bytes "200") (@isBlank_of_mem_digits 200) _ _ _ _ _
  length := announcedLength_headText (by decide) (by decide) (mimeType_parts path).1 small _ _

theorem announces_createdHead {uri : Bytes} (short : uri.length ≤ 243) (isLine : IsLine uri)
    (keepAlive : Bool) : Announces (createdHead uri keepAlive) 201 createdBody.length where
  ends := ((wellFormedHead_createdHead_iff uri keepAlive).mpr ⟨short, isLine⟩).ends
  status := @headStatus_headText (bytes "201") (@isBlank_of_mem_digits 201) _ _ _ _ _
  length := announcedLength_headText (by decide) (by decide) (by decide) (by decide) _ _

/-- A client reads a head and the announced body. -/
theorem Announces.takes {head : Bytes} {statusCode length : ℕ}
    (announces : Announces head statusCode length) (headOnly : Bool) (body : Bytes)
    (sent : body.length = if headOnly then 0 else length) :
    Takes (readResponse headOnly) (head ++ body) ⟨statusCode, body⟩ := by
  rcases announces.ends with ⟨headersEnd', whole, found⟩
  intro rest
  rw [readResponse, List.append_assoc, found, Option.bind_some, ← whole]
  dsimp only
  rw [List.take_left, List.drop_left, announces.length, Option.bind_some, announces.status, ← sent,
    if_pos (by rw [List.length_append]; omega), List.take_left, List.drop_left, decimalValue_digits]

/-! ## What is sent in each branch -/

/-- The page sent with an error status. -/
def errorResponse (code : ℕ) : Response := ⟨code, errorBody code⟩

/-- The bytes the actions are meant to put on the socket are that answer for a client. -/
def Conveys (headOnly : Bool) (actions : List Action) (response : Response) : Prop :=
  Takes (readResponse headOnly) (actions.flatMap Action.intended) response

section Branches

variable {env : Environment} {request : HTTPRequest} {uri : Bytes}

theorem conveys_sendError {code : ℕ} (used : code ∈ errorCodes) :
    Conveys false (sendError code) (errorResponse code) := by
  have sent := (announces_errorHead used).takes false (errorBody code) rfl
  rw [Conveys, sendError_eq used, errorResponse]
  simpa [Action.intended] using sent

theorem conveys_openFile {headOnly : Bool} {path : Bytes} {fileFd : Option ℕ}
    {actions : List Action} {response : Response} :
    Conveys headOnly (.openFile path fileFd :: actions) response ↔
      Conveys headOnly actions response := Iff.rfl

theorem intended_refuse (code : ℕ) :
    (refuse env request code).flatMap Action.intended =
      (sendError code).flatMap Action.intended := by
  simp [refuse, Action.intended]

theorem conveys_refuse {code : ℕ} (used : code ∈ errorCodes) :
    Conveys false (refuse env request code) (errorResponse code) := by
  rw [Conveys, intended_refuse]
  exact conveys_sendError used

theorem conveys_handlePost (declared : (request.header "content-length").isSome)
    (short : uri.length ≤ 243) (isLine : IsLine uri) :
    Conveys false (handlePost env request uri) ⟨201, createdBody⟩ := by
  rcases Option.isSome_iff_exists.mp declared with ⟨value, found⟩
  have sent := (announces_createdHead short isLine (keepAlive request)).takes false createdBody rfl
  have stored : ∀ body, (storeBody env body).flatMap Action.intended = [] := by
    intro body
    rw [storeBody]
    cases env.openFile postDataPath <;> rfl
  rw [Conveys, handlePost, found, sendCreated_eq]
  simpa [Action.intended, stored] using sent

theorem conveys_serveFile (isGet : Bool) (localPath : Bytes) {status : FileStatus}
    (small : status.size < 2 ^ 31) (fileFd : ℕ) :
    Conveys (!isGet) (serveFile env request isGet localPath status fileFd)
      ⟨200, if isGet then fileRange env.content 0 status.size else []⟩ := by
  have announces := announces_fileHead localPath small (keepAlive request)
  rw [Conveys, serveFile_eq]
  cases isGet with
  | true =>
      have sent := announces.takes false (fileRange env.content 0 status.size) (by simp [fileRange])
      simpa [Action.intended] using sent
  | false =>
      have sent := announces.takes true [] rfl
      simpa [Action.intended] using sent

end Branches

/-! ## The answer to a request -/

namespace RequestMessage

/-- The parser reads a message back. -/
theorem readBack (message : RequestMessage) :
    message.ReadBack (httpRequestConstructor message.serialize) := by
  have lineIs := notMem_of_clean fun byte member => (message.requestLine_clean byte member).1
  have clean : ∀ line ∈ message.headers.map HeaderField.line,
      line ≠ [] ∧ ∀ byte ∈ line, isLineEnd byte = false := by
    intro line member
    rcases List.mem_map.mp member with ⟨field, -, rfl⟩
    exact ⟨field.line_ne_nil, fun byte inside => (field.line_clean byte inside).1⟩
  have noReturns : ∀ line ∈ message.headers.map HeaderField.line, line ≠ [] ∧ 13 ∉ line :=
    fun line member => ⟨(clean line member).1, notMem_of_clean (clean line member).2⟩
  have line := requestLinePart_sectionText lineIs noReturns message.body
  rw [serialize_eq]
  refine ⟨?_, ?_, ?_, ?_, ?_⟩
  · rw [method_httpRequestConstructor, line, tokens_requestLine]
    rfl
  · rw [uri_httpRequestConstructor, line, tokens_requestLine]
    rfl
  · rw [httpVersion_httpRequestConstructor, line, tokens_requestLine]
    rfl
  · intro key
    rw [headerFields_httpRequestConstructor, Dictionary.searchDict_foldl_insertDict,
      Dictionary.searchDict_constructor, Option.none_or, headerEntries,
      tokens_headersPart_sectionText lineIs clean, List.filterMap_map]
    simp only [Function.comp_def, HeaderField.headerEntry_line, List.filterMap_eq_map']
    rw [List.find?_map, Option.map_map]
    rfl
  · rw [data_httpRequestConstructor, bodyPart_sectionText lineIs noReturns]

/-- The value of the first header of that name. -/
def value (message : RequestMessage) (name : Bytes) : Option Bytes :=
  (message.headers.find? fun field => field.name.map tolower = name).map fun field =>
    trim field.value

/-- Whether the client asks for the head alone. -/
def headOnly (message : RequestMessage) : Bool := message.method.text = bytes "HEAD"

/-- The answer to a `GET` or `HEAD` that names this `uri`. -/
def answerFile (env : Environment) (message : RequestMessage) : Response :=
  match resolvePath env message.uri.text with
  | none => errorResponse 404
  | some (path, status) =>
      if (env.openFile path).isSome then
        ⟨200, if message.headOnly then [] else fileRange env.content 0 status.size⟩
      else errorResponse 403

/-- What the server means to answer. -/
def answer (routes : Routes) (env : Environment) (message : RequestMessage) : Response :=
  if ¬((routes.dictionary.searchDict message.uri.text).or
      (routes.dictionary.searchDict (bytes "*"))).isSome then errorResponse 404
  else if message.httpVersion.text ≠ bytes "HTTP/1.1" then errorResponse 505
  else if traverses message.uri.text then errorResponse 403
  else if message.method.text = bytes "POST" then
    if (message.value (bytes "content-length")).isSome then ⟨201, createdBody⟩
    else errorResponse 411
  else if message.method.text ≠ bytes "GET" ∧ ¬message.headOnly then errorResponse 405
  else message.answerFile env

/-- The answer is one that reaches the client as it is meant. -/
structure Deliverable (routes : Routes) (env : Environment) (message : RequestMessage) :
    Prop where
  small : message.method.text = bytes "GET" ∨ message.headOnly →
    ∀ path status, resolvePath env message.uri.text = some (path, status) → status.size < 2 ^ 31
  location : message.method.text = bytes "POST" → message.uri.text.length ≤ 243
  found : message.headOnly → (message.answer routes env).status = 200

variable {routes : Routes} {env : Environment} {message : RequestMessage} {request : HTTPRequest}

theorem isLine_uri (message : RequestMessage) : IsLine message.uri.text := by
  have clean := fun byte member => (message.uri.clean byte member).2.1
  refine ⟨notMem_of_clean clean, fun feed => ?_⟩
  exact absurd (clean 10 feed) (by decide)

/-- An error is not the answer to a `HEAD` then, so the page is read. -/
theorem Deliverable.conveys_error (deliverable : message.Deliverable routes env) {code : ℕ}
    (used : code ∈ errorCodes) (isError : message.answer routes env = errorResponse code)
    {actions : List Action} (conveys : Conveys false actions (errorResponse code)) :
    Conveys message.headOnly actions (message.answer routes env) := by
  have notFound : ∀ code ∈ errorCodes, code ≠ 200 := by decide
  have notHead : message.headOnly = false := by
    rw [Bool.eq_false_iff]
    intro headOnly
    have found := deliverable.found headOnly
    rw [isError] at found
    exact notFound code used found
  rw [notHead, isError]
  exact conveys

theorem Deliverable.conveys_handleFile (deliverable : message.Deliverable routes env)
    (asks : message.method.text = bytes "GET" ∨ message.headOnly)
    (isAnswer : message.answer routes env = message.answerFile env) :
    Conveys message.headOnly (handleFile env request (!message.headOnly) message.uri.text)
      (message.answer routes env) := by
  rw [answerFile] at isAnswer
  rw [handleFile]
  cases resolved : resolvePath env message.uri.text with
  | none =>
      rw [resolved] at isAnswer
      exact deliverable.conveys_error (by decide) isAnswer (conveys_refuse (by decide))
  | some file =>
      rcases file with ⟨path, status⟩
      have small := deliverable.small asks path status resolved
      rw [resolved] at isAnswer
      dsimp only at isAnswer ⊢
      rw [conveys_openFile]
      cases opened : env.openFile path with
      | none =>
          rw [opened] at isAnswer
          exact deliverable.conveys_error (by decide) isAnswer (conveys_refuse (by decide))
      | some fileFd =>
          have served := @conveys_serveFile env request (!message.headOnly) path status small fileFd
          rw [opened, Option.isSome_some, if_pos rfl] at isAnswer
          rw [answerOpened, isAnswer]
          cases headOnly : message.headOnly <;> simpa [headOnly] using served

/-- The actions of the worker convey the answer. -/
theorem Deliverable.conveys_dispatch (deliverable : message.Deliverable routes env)
    (read : message.ReadBack request) :
    Conveys message.headOnly (dispatch routes.dictionary env request)
      (message.answer routes env) := by
  have handles : routes.handles request = ((routes.dictionary.searchDict message.uri.text).or
      (routes.dictionary.searchDict (bytes "*"))).isSome := by
    rw [Routes.handles, read.uri, Option.bind_some]
  have header : request.header "content-length" = message.value (bytes "content-length") :=
    read.headerFields _
  have method : request.method = some message.method.text := read.method
  rw [routes.dispatch_eq, handles]
  by_cases routed : ¬((routes.dictionary.searchDict message.uri.text).or
      (routes.dictionary.searchDict (bytes "*"))).isSome
  · rw [if_neg routed]
    exact deliverable.conveys_error (by decide) (if_pos routed) (conveys_sendError (by decide))
  rw [if_pos (not_not.mp routed), handleFilesystemRequest, method, read.uri, read.httpVersion]
  dsimp only
  by_cases version : message.httpVersion.text ≠ bytes "HTTP/1.1"
  · have isError : message.answer routes env = errorResponse 505 := by
      rw [answer, if_neg routed, if_pos version]
    rw [if_pos version]
    exact deliverable.conveys_error (by decide) isError (conveys_refuse (by decide))
  rw [if_neg version]
  by_cases climbs : traverses message.uri.text
  · have isError : message.answer routes env = errorResponse 403 := by
      rw [answer, if_neg routed, if_neg version, if_pos climbs]
    rw [if_pos climbs]
    exact deliverable.conveys_error (by decide) isError (conveys_refuse (by decide))
  rw [if_neg climbs]
  by_cases isPost : message.method.text = bytes "POST"
  · have notHead : message.headOnly = false := by
      rw [headOnly, isPost]
      decide
    rw [if_pos isPost]
    cases declared : message.value (bytes "content-length") with
    | none =>
        have isError : message.answer routes env = errorResponse 411 := by
          rw [answer, if_neg routed, if_neg version, if_neg climbs, if_pos isPost, declared]
          rfl
        rw [handlePost, header, declared]
        exact deliverable.conveys_error (by decide) isError (conveys_refuse (by decide))
    | some value =>
        have stores : (request.header "content-length").isSome := by
          rw [header, declared]
          rfl
        rw [answer, if_neg routed, if_neg version, if_neg climbs, if_pos isPost, declared, notHead]
        exact conveys_handlePost stores (deliverable.location isPost) message.isLine_uri
  rw [if_neg isPost]
  by_cases other : message.method.text ≠ bytes "GET" ∧ ¬message.headOnly
  · have isError : message.answer routes env = errorResponse 405 := by
      rw [answer, if_neg routed, if_neg version, if_neg climbs, if_neg isPost, if_pos other]
    rw [if_pos (by simpa [headOnly] using other)]
    exact deliverable.conveys_error (by decide) isError (conveys_refuse (by decide))
  · have isAnswer : message.answer routes env = message.answerFile env := by
      rw [answer, if_neg routed, if_neg version, if_neg climbs, if_neg isPost, if_neg other]
    have isGet : decide (message.method.text = bytes "GET") = !message.headOnly := by
      have headIsNotGet : bytes "HEAD" ≠ bytes "GET" := by decide
      by_cases get : message.method.text = bytes "GET"
      · simp [headOnly, get, headIsNotGet.symm]
      · simpa [get] using other
    have asks : message.method.text = bytes "GET" ∨ message.headOnly := by
      simpa only [not_and_or, not_not, ne_eq] using other
    rw [if_neg (by simpa [headOnly] using other), isGet]
    exact deliverable.conveys_handleFile asks isAnswer

theorem Deliverable.fileFits (deliverable : message.Deliverable routes env)
    (read : message.ReadBack request) : FileFits env request := by
  intro uri path status asks _ resolved _
  have same : uri = message.uri.text := Option.some.inj (asks.hasUri.symm.trans read.uri)
  have method : request.method = some message.method.text := read.method
  have getOrHead : message.method.text = bytes "GET" ∨ message.headOnly := by
    simpa [method, headOnly] using asks.getOrHead
  exact deliverable.small getOrHead path status (same ▸ resolved)

end RequestMessage

/-! ## System calls that do not give up -/

/-- No call among the actions is still running when the system calls are used up. -/
def Finishes : List Action → List SystemCall → Prop
  | [], _ => True
  | action :: actions, calls =>
      (action.transfer calls).ended ≠ .running ∧ Finishes actions (action.transfer calls).rest

instance decidableFinishes : (actions : List Action) → (calls : List SystemCall) →
    Decidable (Finishes actions calls)
  | [], _ => isTrue trivial
  | action :: actions, calls =>
      haveI := decidableFinishes actions (action.transfer calls).rest
      inferInstanceAs (Decidable (_ ∧ _))

/-- The system calls bring every action to its end without giving up. -/
structure Carried (actions : List Action) (calls : List SystemCall) : Prop where
  steady : ∀ call ∈ calls, call.givesUp = false
  finishes : Finishes actions calls

theorem Carried.wire_eq {actions : List Action} {calls : List SystemCall}
    (carried : Carried actions calls) (sound : Sound actions) :
    wire actions calls = actions.flatMap Action.intended := by
  induction actions generalizing calls with
  | nil => rfl
  | cons action actions ih =>
      rcases carried with ⟨steady, ended, finishes⟩
      rcases sound action List.mem_cons_self calls with ⟨made, transfers⟩
      have isCall : ∀ call ∈ made ++ (action.transfer calls).rest, call ∈ calls :=
        fun call member => transfers.split ▸ member
      have whole : (action.transfer calls).accepted = action.intended := by
        rcases transfers.outcome with ⟨-, outcome⟩ | ⟨before, last, rfl, -, gaveUp, -⟩
        · exact outcome.resolve_left ended
        · rw [steady last (isCall last (by simp))] at gaveUp
          cases gaveUp
      have rest : Carried actions (action.transfer calls).rest :=
        ⟨fun call member => steady call (isCall call (List.mem_append_right _ member)), finishes⟩
      rw [wire, if_neg ended, whole, List.flatMap_cons,
        ih rest fun other member => sound other (List.mem_cons_of_mem _ member)]

/-! ## One answer after the other -/

section Answers

variable {routes : Routes} {Item : Type} {items : List Item} {env : Item → Environment}
  {message : Item → RequestMessage}

/-- What is done to answer one request after the other. -/
def answerAll (routes : Routes) (env : Item → Environment) (message : Item → RequestMessage)
    (items : List Item) : List Action :=
  items.flatMap fun item =>
    dispatch routes.dictionary (env item) (httpRequestConstructor (message item).serialize)

theorem takes_answerAll
    (deliverable : ∀ item ∈ items, (message item).Deliverable routes (env item)) :
    Takes (inTurn (items.map fun item => readResponse (message item).headOnly))
      ((answerAll routes env message items).flatMap Action.intended)
      (items.map fun item => (message item).answer routes (env item)) := by
  rw [answerAll, List.flatMap_assoc]
  apply takes_inTurn
  intro item member
  exact (deliverable item member).conveys_dispatch (message item).readBack

theorem sound_answerAll
    (deliverable : ∀ item ∈ items, (message item).Deliverable routes (env item)) :
    Sound (answerAll routes env message items) := by
  intro action member
  rcases List.mem_flatMap.mp member with ⟨item, isItem, member⟩
  have fits := (deliverable item isItem).fileFits (message item).readBack
  exact sound_dispatch routes (fun _ => fits) action member

/-- A client reads one answer to each request and nothing else. -/
theorem Carried.read_answerAll
    (deliverable : ∀ item ∈ items, (message item).Deliverable routes (env item))
    {calls : List SystemCall} (carried : Carried (answerAll routes env message items) calls) :
    inTurn (items.map fun item => readResponse (message item).headOnly)
        (wire (answerAll routes env message items) calls) =
      some (items.map fun item => (message item).answer routes (env item), []) := by
  have read := takes_answerAll deliverable []
  rw [List.append_nil] at read
  rw [carried.wire_eq (sound_answerAll deliverable), read]

end Answers

end LetUsConnect
