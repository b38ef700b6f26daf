import LetUsConnect.Handler

/-!
# The response heads of the handler

A head is well formed when it is a status line and the header lines of the
format, each with its line end and none with a line end inside, followed by an
empty line. All parts of a head are fixed texts, numbers and MIME types, except
for the `Location` of a 201 response, which repeats the `uri` of the request.

The buffer for that header holds 255 bytes, and the parser lets single carriage
returns and line feeds through, so both the length and the content of the `uri`
decide whether the head is well formed.
-/

namespace LetUsConnect

open CString

/-- A text without line ends. -/
def IsLine (line : Bytes) : Prop := 13 ∉ line ∧ 10 ∉ line

instance (line : Bytes) : Decidable (IsLine line) := inferInstanceAs (Decidable (_ ∧ _))

/-- The name of a header line. -/
def headerName (line : Bytes) : Bytes := line.takeWhile (· != ch ':')

/-- The headers named in the format of `send_response_head`. -/
def formatHeaders : List Bytes :=
  [bytes "Server", bytes "Content-Type", bytes "Content-Length", bytes "Connection"]

/-- The start of the status line of a 201 response. -/
def createdStatus : Bytes := bytes "HTTP/1.1 201 "

/-- The lines a well-formed head consists of. -/
structure HeadLayout (uri : Option Bytes) (sent statusLine : Bytes) (headers : List Bytes) :
    Prop where
  layout : sent = withLineEnds (statusLine :: headers) ++ crlf
  isLine : ∀ line ∈ statusLine :: headers, IsLine line
  version : bytes "HTTP/1.1 " <+: statusLine
  plain : ¬createdStatus <+: statusLine → headers.map headerName = formatHeaders
  created : createdStatus <+: statusLine →
    headers.map headerName = formatHeaders ++ [bytes "Location"] ∧
      ∃ location, uri = some location ∧ bytes "Location: " ++ location ∈ headers

/-- A head whose bytes are the lines of the format and nothing else. -/
def WellFormedHead (uri : Option Bytes) (sent : Bytes) : Prop :=
  ∃ statusLine headers, HeadLayout uri sent statusLine headers

/-- Every head the handler sends completely is well formed. -/
def HeadsWellFormed (request : HTTPRequest) : Prop :=
  ∀ env buffer len calls, Action.sendHead buffer len ∈ handleFilesystemRequest env request →
    (sendAll buffer len calls).ended = .returned 0 →
      WellFormedHead request.uri (sendAll buffer len calls).accepted

/-! ## Lines -/

theorem isLine_append {first second : Bytes} :
    IsLine (first ++ second) ↔ IsLine first ∧ IsLine second := by
  simp only [IsLine, List.mem_append, not_or]
  tauto

theorem isLine_decimal (value : ℤ) : IsLine (decimal value) := by
  constructor
  · intro member
    rcases isdigit_or_eq_of_mem_decimal member with impossible | impossible <;>
      exact absurd impossible (by decide)
  · intro member
    rcases isdigit_or_eq_of_mem_decimal member with impossible | impossible <;>
      exact absurd impossible (by decide)

theorem withLineEnds_append (first second : List Bytes) :
    withLineEnds (first ++ second) = withLineEnds first ++ withLineEnds second :=
  List.flatMap_append

theorem line_unique {line other rest remaining : Bytes} (isLine : IsLine line)
    (otherIsLine : IsLine other)
    (same : line ++ (crlf ++ rest) = other ++ (crlf ++ remaining)) :
    line = other ∧ rest = remaining := by
  rcases append_cons_unique isLine.1 otherIsLine.1 same with ⟨lineEq, restEq⟩
  exact ⟨lineEq, List.cons_injective restEq⟩

/-- The lines at the start of a text are determined by the text. -/
theorem lines_unique {known lines : List Bytes} {rest remaining : Bytes}
    (knownLines : ∀ line ∈ known, IsLine line) (isLine : ∀ line ∈ lines, IsLine line)
    (enough : known.length ≤ lines.length)
    (same : withLineEnds known ++ rest = withLineEnds lines ++ remaining) :
    ∃ others, lines = known ++ others ∧ rest = withLineEnds others ++ remaining := by
  induction known generalizing lines with
  | nil => exact ⟨lines, rfl, same⟩
  | cons line known ih =>
      cases lines with
      | nil => simp at enough
      | cons other lines =>
          simp only [withLineEnds, List.flatMap_cons, List.append_assoc] at same
          rcases line_unique (knownLines _ List.mem_cons_self) (isLine _ List.mem_cons_self) same
            with ⟨rfl, restSame⟩
          rcases ih (fun line member => knownLines line (List.mem_cons_of_mem _ member))
              (fun line member => isLine line (List.mem_cons_of_mem _ member))
              (by simpa using enough) restSame with ⟨others, rfl, restEq⟩
          exact ⟨others, rfl, restEq⟩

/-- The lines of a text are its tokens. -/
theorem tokens_withLineEnds {lines : List Bytes} (isLine : ∀ line ∈ lines, IsLine line)
    (nonempty : ∀ line ∈ lines, line ≠ []) (rest : Bytes) :
    tokens isLineEnd (withLineEnds lines ++ rest) = lines ++ tokens isLineEnd rest := by
  induction lines with
  | nil => rfl
  | cons line lines ih =>
      have clear := isLine line List.mem_cons_self
      have free : ∀ byte ∈ line, isLineEnd byte = false := by
        intro byte member
        have notReturn : byte ≠ 13 := fun same => clear.1 (same ▸ member)
        have notFeed : byte ≠ 10 := fun same => clear.2 (same ▸ member)
        simp [isLineEnd, notReturn, notFeed]
      have split : withLineEnds (line :: lines) ++ rest =
          line ++ 13 :: 10 :: (withLineEnds lines ++ rest) := by
        simp [withLineEnds, crlf]
      rw [split, tokens_append_delimiter free (nonempty line List.mem_cons_self) (by decide),
        tokens_cons_delimiter (by decide),
        ih (fun other member => isLine other (List.mem_cons_of_mem _ member))
          (fun other member => nonempty other (List.mem_cons_of_mem _ member)), List.cons_append]

/-! ## The lines of the format -/

section Format

variable {status text contentType : Bytes}

theorem isLine_headLines (statusIsLine : IsLine status) (textIsLine : IsLine text)
    (typeIsLine : IsLine contentType) (contentLength : ℤ) (keepAlive : Bool) :
    ∀ line ∈ headLines status text contentType contentLength keepAlive, IsLine line := by
  have fixed : IsLine (bytes "HTTP/1.1 ") ∧ IsLine (bytes " ") ∧
      IsLine (bytes "Server: Let-us-Connect/1.0") ∧ IsLine (bytes "Content-Type: ") ∧
      IsLine (bytes "Content-Length: ") ∧ IsLine (bytes "Connection: ") ∧
      IsLine (if keepAlive then bytes "keep-alive" else bytes "close") := by
    cases keepAlive <;> decide
  simp [headLines, isLine_append, isLine_decimal, statusIsLine, textIsLine, typeIsLine, fixed]

theorem tokens_headText (statusIsLine : IsLine status) (textIsLine : IsLine text)
    (typeIsLine : IsLine contentType) (contentLength : ℤ) (extra : Option Bytes)
    (keepAlive : Bool) :
    tokens isLineEnd (headText status text contentType contentLength extra keepAlive) =
      headLines status text contentType contentLength keepAlive ++
        tokens isLineEnd (extra.getD [] ++ crlf) := by
  have nonempty : ∀ line ∈ headLines status text contentType contentLength keepAlive,
      line ≠ [] := by
    simp [headLines, bytes]
  rw [headText, List.append_assoc, tokens_withLineEnds
    (isLine_headLines statusIsLine textIsLine typeIsLine contentLength keepAlive) nonempty]

theorem length_headText_le (statusShort : status.length ≤ 11) (textShort : text.length ≤ 100)
    (typeShort : contentType.length ≤ 100) (contentLength : ℤ) {extra : Option Bytes}
    (extraShort : (extra.getD []).length ≤ 255) (keepAlive : Bool) :
    (headText status text contentType contentLength extra keepAlive).length ≤ 1023 := by
  have number := length_decimal_le (toInt_bounds contentLength).1 (toInt_bounds contentLength).2
  have connection : (if keepAlive then bytes "keep-alive" else bytes "close").length ≤ 10 := by
    cases keepAlive <;> decide
  have fixed : (bytes "HTTP/1.1 ").length = 9 ∧ (bytes " ").length = 1 ∧
      (bytes "Server: Let-us-Connect/1.0").length = 26 ∧ (bytes "Content-Type: ").length = 14 ∧
      (bytes "Content-Length: ").length = 16 ∧ (bytes "Connection: ").length = 12 ∧
      crlf.length = 2 := by
    decide
  simp only [headText, withLineEnds, headLines, List.flatMap_cons, List.flatMap_nil,
    List.length_append, List.length_nil, fixed]
  omega

theorem sendResponseHead_eq {contentLength : ℤ} {extra : Option Bytes} {keepAlive : Bool}
    (fits : (headText status text contentType contentLength extra keepAlive).length ≤ 1023) :
    sendResponseHead status text contentType contentLength extra keepAlive =
      .sendHead (headText status text contentType contentLength extra keepAlive)
        (headText status text contentType contentLength extra keepAlive).length := by
  rw [sendResponseHead, snprintf, List.take_of_length_le (by omega)]

theorem wellFormedHead_headText (statusIsLine : IsLine status) (textIsLine : IsLine text)
    (typeIsLine : IsLine contentType) (contentLength : ℤ) {extra : Option Bytes}
    (noExtra : extra.getD [] = []) (keepAlive : Bool) (uri : Option Bytes)
    (notCreated : ¬bytes "201 " <+: status ++ (bytes " " ++ text)) :
    WellFormedHead uri (headText status text contentType contentLength extra keepAlive) := by
  exact ⟨bytes "HTTP/1.1 " ++ status ++ bytes " " ++ text,
    (headLines status text contentType contentLength keepAlive).tail,
    { layout := by rw [headText, noExtra, List.append_nil]; rfl
      isLine := isLine_headLines statusIsLine textIsLine typeIsLine contentLength keepAlive
      version := by rw [List.append_assoc, List.append_assoc]; exact List.prefix_append _ _
      plain := fun _ => by cases keepAlive <;> rfl
      created := by
        intro created
        have split : createdStatus = bytes "HTTP/1.1 " ++ bytes "201 " := by decide
        rw [split, List.append_assoc, List.append_assoc,
          List.prefix_append_right_inj] at created
        exact absurd created notCreated }⟩

end Format

/-! ## The heads of the branches -/

theorem mimeType_mem (path : Bytes) :
    getMimeType path ∈ [bytes "application/octet-stream", bytes "text/html", bytes "text/css",
      bytes "application/javascript", bytes "image/png", bytes "image/jpeg"] := by
  rw [getMimeType]
  split
  · simp
  · split_ifs <;> simp

/-- The statuses `send_error` is called with. -/
def errorCodes : List ℕ := 404 :: refusals

/-- The head sent with an error status. -/
def errorHead (code : ℕ) : Bytes :=
  headText (decimal code) (errorText code) (bytes "text/html") (errorBody code).length (some [])
    false

theorem decimal_natCast (value : ℕ) : decimal value = digits value := by
  rw [decimal_eq, if_pos (by omega), Int.toNat_natCast]

theorem sendError_eq {code : ℕ} (used : code ∈ errorCodes) :
    sendError code = [.sendHead (errorHead code) (errorHead code).length,
      .sendBody (errorBody code) (errorBody code).length] := by
  have parts : ∀ code ∈ errorCodes, (errorText code).length ≤ 100 ∧ (digits code).length ≤ 11 := by
    decide
  have page : (errorBody code).length ≤ 511 := by
    have fixed : (bytes "<html><body><h1>").length = 16 ∧ (bytes " ").length = 1 ∧
        (bytes "</h1><p>Let-us-Connect Server</p></body></html>").length = 47 := by
      decide
    simp only [errorBody, List.length_append, decimal_natCast, fixed]
    have := parts code used
    omega
  have fits : (errorHead code).length ≤ 1023 :=
    length_headText_le (by rw [decimal_natCast]; exact (parts code used).2) (parts code used).1
      (by decide) _ (by decide) _
  rw [sendError, sendResponseHead_eq fits, snprintf, List.take_of_length_le (by omega)]
  rfl

/-- The head sent before a file. -/
def fileHead (path : Bytes) (size : ℕ) (keepAlive : Bool) : Bytes :=
  headText (bytes "200") (bytes "OK") (getMimeType path) size none keepAlive

theorem mimeType_parts (path : Bytes) :
    IsLine (getMimeType path) ∧ (getMimeType path).length ≤ 100 := by
  have parts : ∀ mime ∈ [bytes "application/octet-stream", bytes "text/html", bytes "text/css",
      bytes "application/javascript", bytes "image/png", bytes "image/jpeg"],
      IsLine mime ∧ mime.length ≤ 100 := by
    decide
  exact parts _ (mimeType_mem path)

theorem serveFile_eq (env : Environment) (request : HTTPRequest) (isGet : Bool)
    (localPath : Bytes) (status : FileStatus) (fileFd : ℕ) :
    serveFile env request isGet localPath status fileFd =
      .sendHead (fileHead localPath status.size (keepAlive request))
          (fileHead localPath status.size (keepAlive request)).length ::
        ((if isGet then [.sendFile env.content fileFd 0 status.size] else []) ++
          [.closeFile fileFd, .logRequest (getClientIp env) request.method request.uri 200
            (request.header "host")]) := by
  rw [serveFile, sendResponseHead_eq (length_headText_le (by decide) (by decide)
    (mimeType_parts localPath).2 _ (by decide) _)]
  rfl

/-- The head of a 201 response. -/
def createdHead (uri : Bytes) (keepAlive : Bool) : Bytes :=
  headText (bytes "201") (bytes "Created") (bytes "text/plain") createdBody.length
    (some (locationHeader uri)) keepAlive

theorem length_locationHeader_le (uri : Bytes) : (locationHeader uri).length ≤ 255 := by
  rw [locationHeader, snprintf, List.length_take]
  omega

theorem sendCreated_eq (uri : Bytes) (keepAlive : Bool) :
    sendCreated uri keepAlive =
      [.sendHead (createdHead uri keepAlive) (createdHead uri keepAlive).length,
        .sendBody createdBody createdBody.length] := by
  have fits : (createdHead uri keepAlive).length ≤ 1023 := by
    apply length_headText_le (by decide) (by decide) (by decide)
    exact length_locationHeader_le uri
  rw [sendCreated, sendResponseHead_eq fits]
  rfl

/-! ## Which heads are well formed -/

theorem wellFormedHead_errorHead {code : ℕ} (used : code ∈ errorCodes) (uri : Option Bytes) :
    WellFormedHead uri (errorHead code) := by
  have parts : ∀ code ∈ errorCodes, IsLine (errorText code) ∧
      ¬bytes "201 " <+: digits code ++ (bytes " " ++ errorText code) := by
    decide
  exact wellFormedHead_headText (isLine_decimal _) (parts code used).1 (by decide) _ rfl false uri
    (by rw [decimal_natCast]; exact (parts code used).2)

theorem wellFormedHead_fileHead (path : Bytes) (size : ℕ) (keepAlive : Bool)
    (uri : Option Bytes) : WellFormedHead uri (fileHead path size keepAlive) :=
  wellFormedHead_headText (by decide) (by decide) (mimeType_parts path).1 _ rfl _ uri (by decide)

theorem sendHead_mem_refuse {env : Environment} {request : HTTPRequest} {code : ℕ}
    (used : code ∈ errorCodes) {buffer : Bytes} {len : ℤ}
    (member : Action.sendHead buffer len ∈ refuse env request code) :
    buffer = errorHead code ∧ len = (errorHead code).length := by
  simpa [refuse, sendError_eq used] using member

theorem sendHead_mem_handleFile {env : Environment} {request : HTTPRequest} {isGet : Bool}
    {uri buffer : Bytes} {len : ℤ}
    (member : Action.sendHead buffer len ∈ handleFile env request isGet uri) :
    ((∃ code ∈ errorCodes, buffer = errorHead code) ∨
      ∃ path status, resolvePath env uri = some (path, status) ∧ (env.openFile path).isSome ∧
        buffer = fileHead path status.size (keepAlive request)) ∧ len = buffer.length := by
  rw [handleFile] at member
  split at member
  · rcases sendHead_mem_refuse (by decide) member with ⟨rfl, rfl⟩
    exact ⟨Or.inl ⟨404, by decide, rfl⟩, rfl⟩
  · next localPath status resolved =>
      have member := List.mem_of_ne_of_mem (by simp) member
      cases opened : env.openFile localPath with
      | none =>
          rw [opened] at member
          rcases sendHead_mem_refuse (by decide) member with ⟨rfl, rfl⟩
          exact ⟨Or.inl ⟨403, by decide, rfl⟩, rfl⟩
      | some fileFd =>
          rw [opened, answerOpened] at member
          have isHead : buffer = fileHead localPath status.size (keepAlive request) ∧
              len = (fileHead localPath status.size (keepAlive request)).length := by
            rw [serveFile_eq] at member
            cases isGet <;> simpa using member
          rcases isHead with ⟨rfl, rfl⟩
          exact ⟨Or.inr ⟨localPath, status, resolved, by rw [opened]; rfl, rfl⟩, rfl⟩

theorem locationHeader_eq_iff {uri : Bytes} :
    locationHeader uri = bytes "Location: " ++ uri ++ crlf ↔ uri.length ≤ 243 := by
  have fixed : (bytes "Location: ").length = 10 ∧ crlf.length = 2 := by decide
  rw [locationHeader, snprintf, List.take_eq_self_iff]
  simp only [List.length_append, fixed]
  omega

/-- The lines of a 201 head before its location. -/
def createdLines (keepAlive : Bool) : List Bytes :=
  headLines (bytes "201") (bytes "Created") (bytes "text/plain") createdBody.length keepAlive

theorem isLine_createdLines (keepAlive : Bool) : ∀ line ∈ createdLines keepAlive, IsLine line :=
  isLine_headLines (by decide) (by decide) (by decide) _ _

theorem createdLines_eq (keepAlive : Bool) :
    createdLines keepAlive =
      (createdStatus ++ bytes "Created") :: (createdLines keepAlive).tail := rfl

theorem names_createdLines (keepAlive : Bool) :
    (createdLines keepAlive).tail.map headerName = formatHeaders := by
  cases keepAlive <;> rfl

theorem locationHeader_of_layout {uri statusLine : Bytes} {headers : List Bytes}
    {keepAlive : Bool}
    (head : HeadLayout (some uri) (createdHead uri keepAlive) statusLine headers) :
    locationHeader uri = bytes "Location: " ++ uri ++ crlf ∧ IsLine uri := by
  have enough : (createdLines keepAlive).length ≤ (statusLine :: headers).length := by
    have names : headers.length = 4 ∨ headers.length = 5 := by
      rw [← List.length_map (f := headerName)]
      by_cases created : createdStatus <+: statusLine
      · right
        rw [(head.created created).1]
        rfl
      · left
        rw [head.plain created]
        rfl
    rw [createdLines, headLines, List.length_cons]
    simp only [List.length_cons, List.length_nil]
    omega
  have layout := head.layout
  rw [createdHead, headText, List.append_assoc] at layout
  rcases lines_unique (isLine_createdLines keepAlive) head.isLine enough layout with
    ⟨others, lines, rest⟩
  rw [createdLines_eq, List.cons_append, List.cons.injEq] at lines
  rcases lines with ⟨rfl, rfl⟩
  rcases head.created (List.prefix_append _ _) with ⟨names, location, same, member⟩
  cases same
  rw [List.map_append, names_createdLines, List.append_cancel_left_eq,
    List.map_eq_singleton_iff] at names
  rcases names with ⟨last, rfl, -⟩
  have isLast : bytes "Location: " ++ uri = last := by
    rcases List.mem_append.mp member with other | last
    · have named : headerName (bytes "Location: " ++ uri) ∈ formatHeaders := by
        rw [← names_createdLines keepAlive]
        exact List.mem_map_of_mem other
      rw [show headerName (bytes "Location: " ++ uri) = bytes "Location" from rfl] at named
      exact absurd named (by decide)
    · exact List.mem_singleton.mp last
  have lastIsLine := head.isLine last (by simp)
  rw [← isLast, isLine_append] at lastIsLine
  refine ⟨?_, lastIsLine.2⟩
  have split : locationHeader uri ++ crlf = last ++ crlf ++ crlf := by
    simpa [withLineEnds] using rest
  rw [isLast]
  exact List.append_cancel_right split

/-- When the head of a 201 response is well formed. -/
theorem wellFormedHead_createdHead_iff (uri : Bytes) (keepAlive : Bool) :
    WellFormedHead (some uri) (createdHead uri keepAlive) ↔ uri.length ≤ 243 ∧ IsLine uri := by
  constructor
  · rintro ⟨statusLine, headers, head⟩
    have whole := locationHeader_of_layout head
    exact ⟨locationHeader_eq_iff.mp whole.1, whole.2⟩
  · rintro ⟨short, uriIsLine⟩
    have locationIsLine : IsLine (bytes "Location: " ++ uri) :=
      isLine_append.mpr ⟨by decide, uriIsLine⟩
    exact ⟨createdStatus ++ bytes "Created",
      (createdLines keepAlive).tail ++ [bytes "Location: " ++ uri],
      { layout := by
          rw [← List.cons_append, ← createdLines_eq, withLineEnds_append, createdHead, headText,
            Option.getD_some, locationHeader_eq_iff.mpr short]
          simp [withLineEnds, createdLines]
        isLine := by
          rw [← List.cons_append, ← createdLines_eq]
          intro line member
          rcases List.mem_append.mp member with fixed | last
          · exact isLine_createdLines keepAlive line fixed
          · rwa [List.mem_singleton.mp last]
        version := ⟨bytes "201 Created", rfl⟩
        plain := fun notCreated => absurd (List.prefix_append _ _) notCreated
        created := fun _ =>
          ⟨by rw [List.map_append, names_createdLines]; rfl, uri, rfl, by simp⟩ }⟩

theorem sendHead_mem_handlePost_iff {env : Environment} {request : HTTPRequest} {uri : Bytes}
    (declared : (request.header "content-length").isSome) {buffer : Bytes} {len : ℤ} :
    Action.sendHead buffer len ∈ handlePost env request uri ↔
      buffer = createdHead uri (keepAlive request) ∧
        len = (createdHead uri (keepAlive request)).length := by
  rcases Option.isSome_iff_exists.mp declared with ⟨value, found⟩
  have stored : Action.sendHead buffer len ∉ storeBody env (request.data.getD []) := by
    rw [storeBody]
    split <;> simp
  simp [handlePost, found, sendCreated_eq, stored]

/--
All heads of a request are well formed exactly when it is not answered with 201
or its `uri` has at most 243 bytes and no line ends.
-/
theorem headsWellFormed_iff (text : Bytes) :
    HeadsWellFormed (httpRequestConstructor text) ↔
      ∀ uri, StoresBody (httpRequestConstructor text) uri → uri.length ≤ 243 ∧ IsLine uri := by
  generalize httpRequestConstructor text = request
  by_cases stores : ∃ uri, StoresBody request uri
  · rcases stores with ⟨uri, stores⟩
    have unique : ∀ other, StoresBody request other → other = uri := fun other otherStores =>
      Option.some.inj (otherStores.hasUri.symm.trans stores.hasUri)
    have heads : HeadsWellFormed request ↔
        WellFormedHead (some uri) (createdHead uri (keepAlive request)) := by
      have nonempty : createdHead uri (keepAlive request) ≠ [] := List.cons_ne_nil _ _
      simp only [HeadsWellFormed, handleFilesystemRequest_of_storesBody stores,
        sendHead_mem_handlePost_iff stores.declared, stores.hasUri]
      constructor
      · intro wellFormed
        have atOnce := sendAll_at_once _ nonempty
        have head := wellFormed idle _ _ _ ⟨rfl, rfl⟩ atOnce
        rwa [sendAll_accepted atOnce] at head
      · rintro wellFormed env buffer len calls ⟨rfl, rfl⟩ success
        rwa [sendAll_accepted success]
    rw [heads, wellFormedHead_createdHead_iff]
    exact ⟨fun short other otherStores => unique other otherStores ▸ short,
      fun short => short uri stores⟩
  · rw [not_exists] at stores
    refine iff_of_true ?_ fun uri storesUri => absurd storesUri (stores uri)
    intro env buffer len calls member success
    by_cases asks : ∃ uri, AsksForFile request uri
    · rcases asks with ⟨uri, asks⟩
      rw [handleFilesystemRequest_of_asksForFile asks] at member
      rcases sendHead_mem_handleFile member with ⟨head, rfl⟩
      rw [sendAll_accepted success]
      rcases head with ⟨code, used, rfl⟩ | ⟨path, status, -, -, rfl⟩
      · exact wellFormedHead_errorHead used _
      · exact wellFormedHead_fileHead _ _ _ _
    · rcases handleFilesystemRequest_otherwise stores (not_exists.mp asks) with
        ⟨code, used, refused⟩
      rw [refused] at member
      rcases sendHead_mem_refuse (List.mem_cons_of_mem _ used) member with ⟨rfl, rfl⟩
      rw [sendAll_accepted success]
      exact wellFormedHead_errorHead (List.mem_cons_of_mem _ used) _

/-- A request whose `uri` contains a line feed and a header of the sender's choice. -/
def injectingRequest : Bytes :=
  bytes "POST /a\nSet-Cookie:b HTTP/1.1\r\nContent-Length: 0\r\n\r\n"

/-- The line feed reaches the head of the response. -/
theorem injectingRequest_malformed :
    ¬∀ text : Bytes, HeadsWellFormed (httpRequestConstructor text) := by
  intro wellFormed
  have stores : StoresBody (httpRequestConstructor injectingRequest)
      (bytes "/a\nSet-Cookie:b") :=
    ⟨⟨by decide, by decide, by decide⟩, by decide, by decide⟩
  have sent := wellFormed injectingRequest idle
    (createdHead (bytes "/a\nSet-Cookie:b") true)
    (createdHead (bytes "/a\nSet-Cookie:b") true).length
    [.send (.count (createdHead (bytes "/a\nSet-Cookie:b") true).length)]
  rw [handleFilesystemRequest_of_storesBody stores, sendHead_mem_handlePost_iff stores.declared,
    show keepAlive (httpRequestConstructor injectingRequest) = true by decide] at sent
  have atOnce := sendAll_at_once (createdHead (bytes "/a\nSet-Cookie:b") true)
    (List.cons_ne_nil _ _)
  have head := sent ⟨rfl, rfl⟩ atOnce
  rw [sendAll_accepted atOnce, stores.hasUri, wellFormedHead_createdHead_iff] at head
  exact absurd head.2 (by decide)

end LetUsConnect
