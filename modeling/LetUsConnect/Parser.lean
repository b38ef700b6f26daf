import LetUsConnect.DataStructures.Dictionary

/-!
# The request parser

`src/parser/http_parser.c`. The source splits one mutable copy of the request in
place; here the parts it points to are computed as texts. Allocation is taken
to succeed.

The second half states what each dictionary of the result holds, in terms of
the parts of the request text: the tokens of the request line, the first header
line with a given name, and the text after the header section.
-/

namespace LetUsConnect

open CString

structure HTTPRequest where
  requestLine : Dictionary Bytes
  headerFields : Dictionary Bytes
  body : Dictionary Bytes

/-- The only delimiter of the request line. -/
def isBlank (byte : UInt8) : Bool := byte == ch ' '

/-- The delimiters of the header block, `"\r\n"` as a set. -/
def isLineEnd (byte : UInt8) : Bool := byte == 13 || byte == 10

/-- The delimiter of urlencoded pairs. -/
def isAmpersand (byte : UInt8) : Bool := byte == ch '&'

/-- The empty line that ends the header section. -/
def headersEnd : Bytes := crlf ++ crlf

namespace HTTPRequest

/-- The request before any field is extracted. -/
def empty : HTTPRequest := ⟨dictionaryConstructor, dictionaryConstructor, dictionaryConstructor⟩

/-- Inserts a token of the request line unless it is `NULL`. -/
def insertToken (request : HTTPRequest) (key : String) (token : Option (Bytes × Bytes)) :
    HTTPRequest :=
  match token with
  | none => request
  | some (value, _) =>
      { request with requestLine := request.requestLine.insertDict (bytes key) value }

def extractRequestLineFields (request : HTTPRequest) (requestLine : Bytes) : HTTPRequest :=
  let method := strtok isBlank requestLine
  let uri := method.bind fun token => strtok isBlank token.2
  let httpVersion := uri.bind fun token => strtok isBlank token.2
  ((request.insertToken "method" method).insertToken "uri" uri).insertToken
    "http_version" httpVersion

/-- The key and the value of one header line; lines without a colon or a name have none. -/
def headerEntry (line : Bytes) : Option (Bytes × Bytes) :=
  match strchr line (ch ':') with
  | none => none
  | some (name, value) =>
      if trim name = [] then none else some ((trim name).map tolower, trim value)

/-- The body of the loop of `extract_header_fields`. -/
def extractHeaderLine (request : HTTPRequest) (line : Bytes) : HTTPRequest :=
  match headerEntry line with
  | none => request
  | some (key, value) =>
      { request with headerFields := request.headerFields.insertDict key value }

def extractHeaderFields (request : HTTPRequest) (headerFields : Bytes) : HTTPRequest :=
  (tokens isLineEnd headerFields).foldl extractHeaderLine request

/-- The body of the loop of `extract_body`. -/
def extractPair (request : HTTPRequest) (pair : Bytes) : HTTPRequest :=
  match strchr pair (ch '=') with
  | none => request
  | some (key, value) => { request with body := request.body.insertDict key value }

def extractBody (request : HTTPRequest) (body : Bytes) : HTTPRequest :=
  let request := { request with body := request.body.insertDict (bytes "data") body }
  match request.headerFields.searchDict (bytes "content-type") with
  | none => request
  | some contentType =>
      if (strstr contentType (bytes "application/x-www-form-urlencoded")).isSome then
        (tokens isAmpersand body).foldl extractPair request
      else request

end HTTPRequest

/-! ## The parts of a request text -/

/-- The text before the empty line, or all of it. -/
def headerPart (requestString : Bytes) : Bytes :=
  match strstr requestString headersEnd with
  | none => requestString
  | some bodyStart => requestString.take bodyStart

/-- The text after the empty line. -/
def bodyPart (requestString : Bytes) : Bytes :=
  match strstr requestString headersEnd with
  | none => []
  | some bodyStart => requestString.drop (bodyStart + 4)

/-- The first line of the header section. -/
def requestLinePart (requestString : Bytes) : Bytes :=
  match strstr (headerPart requestString) crlf with
  | none => headerPart requestString
  | some headersStart => (headerPart requestString).take headersStart

/-- The header section after its first line. -/
def headersPart (requestString : Bytes) : Bytes :=
  match strstr (headerPart requestString) crlf with
  | none => []
  | some headersStart => (headerPart requestString).drop (headersStart + 2)

open HTTPRequest in
def httpRequestConstructor (requestString : Bytes) : HTTPRequest :=
  if requestString = [] then empty
  else
    let request := if requestLinePart requestString = [] then empty
      else empty.extractRequestLineFields (requestLinePart requestString)
    let request := if headersPart requestString = [] then request
      else request.extractHeaderFields (headersPart requestString)
    if bodyPart requestString = [] then request
    else request.extractBody (bodyPart requestString)

namespace HTTPRequest

/-- `search(&request_line, "method", ...)`. -/
def method (request : HTTPRequest) : Option Bytes := request.requestLine.searchDict (bytes "method")

/-- `search(&request_line, "uri", ...)`. -/
def uri (request : HTTPRequest) : Option Bytes := request.requestLine.searchDict (bytes "uri")

/-- `search(&request_line, "http_version", ...)`. -/
def httpVersion (request : HTTPRequest) : Option Bytes :=
  request.requestLine.searchDict (bytes "http_version")

/-- A search in the header dictionary. -/
def header (request : HTTPRequest) (name : String) : Option Bytes :=
  request.headerFields.searchDict (bytes name)

/-- `search(&body, "data", ...)`. -/
def data (request : HTTPRequest) : Option Bytes := request.body.searchDict (bytes "data")

/-! ## What the dictionaries hold -/

@[simp]
theorem headerFields_insertToken (request : HTTPRequest) (key : String)
    (token : Option (Bytes × Bytes)) :
    (request.insertToken key token).headerFields = request.headerFields := by
  cases token <;> rfl

@[simp]
theorem body_insertToken (request : HTTPRequest) (key : String)
    (token : Option (Bytes × Bytes)) :
    (request.insertToken key token).body = request.body := by
  cases token <;> rfl

theorem search_insertToken (request : HTTPRequest) (key : String)
    (token : Option (Bytes × Bytes)) (wanted : Bytes) :
    (request.insertToken key token).requestLine.searchDict wanted =
      (request.requestLine.searchDict wanted).or
        (if bytes key = wanted then token.map Prod.fst else none) := by
  cases token with
  | none => simp [insertToken]
  | some token => simp [insertToken, Dictionary.searchDict_insertDict]

theorem extractHeaderLine_eq (request : HTTPRequest) (line : Bytes) :
    request.extractHeaderLine line =
      { request with
        headerFields := (headerEntry line).toList.foldl
          (fun filled entry => filled.insertDict entry.1 entry.2) request.headerFields } := by
  rw [extractHeaderLine]
  cases headerEntry line <;> rfl

/-- The header lines of a request as key and value, in order. -/
def headerEntries (headerFields : Bytes) : List (Bytes × Bytes) :=
  (tokens isLineEnd headerFields).filterMap headerEntry

theorem extractHeaderFields_eq (request : HTTPRequest) (headerFields : Bytes) :
    request.extractHeaderFields headerFields =
      { request with
        headerFields := (headerEntries headerFields).foldl
          (fun filled entry => filled.insertDict entry.1 entry.2) request.headerFields } := by
  rw [extractHeaderFields, headerEntries]
  induction tokens isLineEnd headerFields generalizing request with
  | nil => rfl
  | cons line lines ih =>
      rw [List.foldl_cons, ih, extractHeaderLine_eq]
      cases entry : headerEntry line <;> simp [entry]

theorem foldl_extractPair_frame (request : HTTPRequest) (pairs : List Bytes) :
    (pairs.foldl extractPair request).requestLine = request.requestLine ∧
      (pairs.foldl extractPair request).headerFields = request.headerFields := by
  induction pairs generalizing request with
  | nil => exact ⟨rfl, rfl⟩
  | cons pair pairs ih =>
      rw [List.foldl_cons, (ih _).1, (ih _).2, extractPair]
      cases strchr pair (ch '=') <;> exact ⟨rfl, rfl⟩

/-- Once a body field is stored no later pair changes what its search returns. -/
theorem search_foldl_extractPair (request : HTTPRequest) (pairs : List Bytes) {key value : Bytes}
    (stored : request.body.searchDict key = some value) :
    (pairs.foldl extractPair request).body.searchDict key = some value := by
  induction pairs generalizing request with
  | nil => exact stored
  | cons pair pairs ih =>
      rw [List.foldl_cons]
      apply ih
      rw [extractPair]
      cases strchr pair (ch '=') with
      | none => exact stored
      | some entry => simp [Dictionary.searchDict_insertDict, stored]

theorem extractBody_frame (request : HTTPRequest) (body : Bytes) :
    (request.extractBody body).requestLine = request.requestLine ∧
      (request.extractBody body).headerFields = request.headerFields := by
  rw [extractBody]
  dsimp only
  split
  · exact ⟨rfl, rfl⟩
  · split_ifs
    · exact foldl_extractPair_frame _ _
    · exact ⟨rfl, rfl⟩

theorem data_extractBody (request : HTTPRequest) (body : Bytes)
    (fresh : request.data = none) : (request.extractBody body).data = some body := by
  have stored : (request.body.insertDict (bytes "data") body).searchDict (bytes "data") =
      some body := by
    rw [Dictionary.searchDict_insertDict, show request.body.searchDict (bytes "data") = none
      from fresh]
    simp
  rw [extractBody, data]
  dsimp only
  split
  · exact stored
  · split_ifs
    · exact search_foldl_extractPair _ _ stored
    · exact stored

/-! ## How many insertions there are -/

theorem keys_insertToken (request : HTTPRequest) (key : String) (token : Option (Bytes × Bytes)) :
    (request.insertToken key token).requestLine.keys =
      request.requestLine.keys ++ (token.map fun _ => bytes key).toList := by
  cases token with
  | none => simp [insertToken]
  | some token => rfl

/-- One insertion for each of the first three tokens of the request line. -/
theorem length_keys_extractRequestLineFields (requestLine : Bytes) :
    (empty.extractRequestLineFields requestLine).requestLine.keys.length =
      min 3 (tokens isBlank requestLine).length := by
  simp only [extractRequestLineFields, keys_insertToken]
  rw [tokens_eq_strtok]
  cases strtok isBlank requestLine with
  | none => rfl
  | some method =>
      dsimp only [Option.bind_some]
      rw [tokens_eq_strtok isBlank method.2]
      cases strtok isBlank method.2 with
      | none => rfl
      | some uri =>
          dsimp only [Option.bind_some]
          rw [tokens_eq_strtok isBlank uri.2]
          cases strtok isBlank uri.2 with
          | none => rfl
          | some httpVersion => simp [empty, dictionaryConstructor]

/-- The text of a body is stored even when no pair is. -/
theorem keys_foldl_extractPair_ne_nil (request : HTTPRequest) (pairs : List Bytes)
    (filled : request.body.keys ≠ []) : (pairs.foldl extractPair request).body.keys ≠ [] := by
  induction pairs generalizing request with
  | nil => exact filled
  | cons pair pairs ih =>
      rw [List.foldl_cons]
      apply ih
      rw [extractPair]
      cases strchr pair (ch '=') with
      | none => exact filled
      | some entry => simp

theorem keys_extractBody_ne_nil (request : HTTPRequest) (body : Bytes) :
    (request.extractBody body).body.keys ≠ [] := by
  rw [extractBody]
  dsimp only
  split
  · simp
  · split_ifs
    · apply keys_foldl_extractPair_ne_nil
      simp
    · simp

end HTTPRequest

open HTTPRequest

theorem extractRequestLineFields_nil : empty.extractRequestLineFields [] = empty := rfl

theorem extractHeaderFields_nil (request : HTTPRequest) :
    request.extractHeaderFields [] = request := rfl

theorem extractRequestLineFields_frame (request : HTTPRequest) (requestLine : Bytes) :
    (request.extractRequestLineFields requestLine).headerFields = request.headerFields ∧
      (request.extractRequestLineFields requestLine).body = request.body := by
  simp [extractRequestLineFields]

/-- The request before the body is looked at. -/
def withoutBody (requestString : Bytes) : HTTPRequest :=
  (empty.extractRequestLineFields (requestLinePart requestString)).extractHeaderFields
    (headersPart requestString)

theorem httpRequestConstructor_eq (requestString : Bytes) :
    httpRequestConstructor requestString =
      if bodyPart requestString = [] then withoutBody requestString
      else (withoutBody requestString).extractBody (bodyPart requestString) := by
  rw [httpRequestConstructor, withoutBody]
  by_cases nil : requestString = []
  · subst nil
    rfl
  · rw [if_neg nil]
    have line : (if requestLinePart requestString = [] then empty
        else empty.extractRequestLineFields (requestLinePart requestString)) =
        empty.extractRequestLineFields (requestLinePart requestString) := by
      split_ifs with absent
      · rw [absent, extractRequestLineFields_nil]
      · rfl
    have fields : ∀ request : HTTPRequest, (if headersPart requestString = [] then request
        else request.extractHeaderFields (headersPart requestString)) =
        request.extractHeaderFields (headersPart requestString) := by
      intro request
      split_ifs with absent
      · rw [absent, extractHeaderFields_nil]
      · rfl
    simp only [line, fields]

theorem requestLine_httpRequestConstructor (requestString : Bytes) :
    (httpRequestConstructor requestString).requestLine =
      (empty.extractRequestLineFields (requestLinePart requestString)).requestLine := by
  rw [httpRequestConstructor_eq]
  split_ifs
  · rw [withoutBody, extractHeaderFields_eq]
  · rw [(extractBody_frame _ _).1, withoutBody, extractHeaderFields_eq]

theorem headerFields_httpRequestConstructor (requestString : Bytes) :
    (httpRequestConstructor requestString).headerFields =
      (headerEntries (headersPart requestString)).foldl
        (fun filled entry => filled.insertDict entry.1 entry.2) dictionaryConstructor := by
  have fields : (withoutBody requestString).headerFields =
      (headerEntries (headersPart requestString)).foldl
        (fun filled entry => filled.insertDict entry.1 entry.2) dictionaryConstructor := by
    rw [withoutBody, extractHeaderFields_eq]
    simp only [(extractRequestLineFields_frame _ _).1]
    rfl
  rw [httpRequestConstructor_eq]
  split_ifs
  · exact fields
  · rw [(extractBody_frame _ _).2, fields]

/-- The three searches of the request line return its first three tokens. -/
theorem search_extractRequestLineFields (requestLine wanted : Bytes) :
    (empty.extractRequestLineFields requestLine).requestLine.searchDict wanted =
      if wanted = bytes "method" then (tokens isBlank requestLine)[0]?
      else if wanted = bytes "uri" then (tokens isBlank requestLine)[1]?
      else if wanted = bytes "http_version" then (tokens isBlank requestLine)[2]?
      else none := by
  have methodUri : bytes "method" ≠ bytes "uri" := by decide
  have methodVersion : bytes "method" ≠ bytes "http_version" := by decide
  have uriVersion : bytes "uri" ≠ bytes "http_version" := by decide
  have found : (empty.extractRequestLineFields requestLine).requestLine.searchDict wanted =
      if wanted = bytes "method" then (strtok isBlank requestLine).map Prod.fst
      else if wanted = bytes "uri" then
        ((strtok isBlank requestLine).bind fun token => strtok isBlank token.2).map Prod.fst
      else if wanted = bytes "http_version" then
        (((strtok isBlank requestLine).bind fun token => strtok isBlank token.2).bind
          fun token => strtok isBlank token.2).map Prod.fst
      else none := by
    rw [extractRequestLineFields]
    simp only [search_insertToken, empty, Dictionary.searchDict_constructor, Option.none_or]
    by_cases isMethod : wanted = bytes "method"
    · simp [isMethod, methodUri.symm, methodVersion.symm]
    · by_cases isUri : wanted = bytes "uri"
      · simp [isUri, methodUri, methodUri.symm, uriVersion.symm]
      · simp [isMethod, isUri, eq_comm]
  rw [found, tokens_eq_strtok]
  cases first : strtok isBlank requestLine with
  | none => simp
  | some method =>
      dsimp only [Option.bind_some]
      rw [tokens_eq_strtok isBlank method.2]
      cases second : strtok isBlank method.2 with
      | none => simp
      | some uri =>
          dsimp only [Option.bind_some]
          rw [tokens_eq_strtok isBlank uri.2]
          cases third : strtok isBlank uri.2 <;> simp

theorem method_httpRequestConstructor (requestString : Bytes) :
    (httpRequestConstructor requestString).method =
      (tokens isBlank (requestLinePart requestString))[0]? := by
  rw [method, requestLine_httpRequestConstructor, search_extractRequestLineFields, if_pos rfl]

theorem uri_httpRequestConstructor (requestString : Bytes) :
    (httpRequestConstructor requestString).uri =
      (tokens isBlank (requestLinePart requestString))[1]? := by
  rw [uri, requestLine_httpRequestConstructor, search_extractRequestLineFields,
    if_neg (by decide), if_pos rfl]

theorem httpVersion_httpRequestConstructor (requestString : Bytes) :
    (httpRequestConstructor requestString).httpVersion =
      (tokens isBlank (requestLinePart requestString))[2]? := by
  rw [httpVersion, requestLine_httpRequestConstructor, search_extractRequestLineFields,
    if_neg (by decide), if_neg (by decide), if_pos rfl]

/-- A header search returns the value of the first header line with that lowercase name. -/
theorem header_httpRequestConstructor (requestString : Bytes) (name : String) :
    (httpRequestConstructor requestString).header name =
      ((headerEntries (headersPart requestString)).find?
        (fun entry => entry.1 = bytes name)).map Prod.snd := by
  rw [header, headerFields_httpRequestConstructor, Dictionary.searchDict_foldl_insertDict,
    Dictionary.searchDict_constructor, Option.none_or]

/-- The body text is everything after the header section; there is none when that is empty. -/
theorem data_httpRequestConstructor (requestString : Bytes) :
    (httpRequestConstructor requestString).data =
      if bodyPart requestString = [] then none else some (bodyPart requestString) := by
  have fresh : (withoutBody requestString).data = none := by
    rw [data, withoutBody, extractHeaderFields_eq]
    simp only [(extractRequestLineFields_frame _ _).2]
    rfl
  rw [httpRequestConstructor_eq]
  split_ifs
  · exact fresh
  · exact data_extractBody _ _ fresh

theorem headerFields_eq_withoutBody (requestString : Bytes) :
    (httpRequestConstructor requestString).headerFields =
      (withoutBody requestString).headerFields := by
  rw [httpRequestConstructor_eq]
  split_ifs
  · rfl
  · exact (extractBody_frame _ _).2

theorem body_withoutBody (requestString : Bytes) :
    (withoutBody requestString).body = dictionaryConstructor := by
  rw [withoutBody, extractHeaderFields_eq]
  exact (extractRequestLineFields_frame _ _).2

/-- One insertion for each header line with a colon and a name. -/
theorem keys_headerFields (requestString : Bytes) :
    (httpRequestConstructor requestString).headerFields.keys =
      (headerEntries (headersPart requestString)).map Prod.fst := by
  rw [headerFields_httpRequestConstructor, Dictionary.keys_foldl_insertDict]
  rfl

theorem keys_body_eq_nil_iff (requestString : Bytes) :
    (httpRequestConstructor requestString).body.keys = [] ↔ bodyPart requestString = [] := by
  rw [httpRequestConstructor_eq]
  split_ifs with absent
  · simp [absent, body_withoutBody, dictionaryConstructor]
  · simp [absent, keys_extractBody_ne_nil]

/-- Without header fields there is no content type and the body is stored as it is. -/
theorem length_keys_body_le (requestString : Bytes)
    (fieldless : headerEntries (headersPart requestString) = []) :
    (httpRequestConstructor requestString).body.keys.length ≤ 1 := by
  have noFields : (withoutBody requestString).headerFields = dictionaryConstructor := by
    rw [← headerFields_eq_withoutBody, headerFields_httpRequestConstructor, fieldless]
    rfl
  rw [httpRequestConstructor_eq]
  split_ifs
  · simp [body_withoutBody, dictionaryConstructor]
  · rw [extractBody]
    simp only [noFields, Dictionary.searchDict_constructor, body_withoutBody,
      Dictionary.keys_insertDict]
    simp [dictionaryConstructor]

end LetUsConnect
