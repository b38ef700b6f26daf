import LetUsConnect.Parser

/-!
# Parsing undoes serialization

A request as a client writes it: a request line, header lines and a body. The
conditions on its parts are fields of the types, so that every value of
`RequestMessage` is a text the parser reads back.

The proof locates the first empty line and the first line end in the text; the
lines between them are then the tokens of the header block.
-/

namespace LetUsConnect

open CString HTTPRequest

/-- A header as it is written: `name: value`. -/
structure HeaderField where
  name : Bytes
  value : Bytes
  nonempty : name ≠ []
  starts : ∀ byte ∈ name.head?, isspace byte = false
  ends : ∀ byte ∈ name.getLast?, isspace byte = false
  nameClean : ∀ byte ∈ name, byte ≠ ch ':' ∧ isLineEnd byte = false ∧ byte ≠ 0
  valueClean : ∀ byte ∈ value, isLineEnd byte = false ∧ byte ≠ 0

/-- A part of the request line. -/
structure RequestToken where
  text : Bytes
  nonempty : text ≠ []
  clean : ∀ byte ∈ text, isBlank byte = false ∧ isLineEnd byte = false ∧ byte ≠ 0

structure RequestMessage where
  method : RequestToken
  uri : RequestToken
  httpVersion : RequestToken
  headers : List HeaderField
  body : Bytes
  bodyClean : 0 ∉ body

/-- `name: value` without the line end. -/
def HeaderField.line (field : HeaderField) : Bytes := field.name ++ ch ':' :: ch ' ' :: field.value

namespace RequestMessage

def requestLine (message : RequestMessage) : Bytes :=
  message.method.text ++ ch ' ' :: (message.uri.text ++ ch ' ' :: message.httpVersion.text)

/-- The text of the request. -/
def serialize (message : RequestMessage) : Bytes :=
  message.requestLine ++ crlf ++ message.headers.flatMap (fun field => field.line ++ crlf) ++
    crlf ++ message.body

end RequestMessage

/-! ## Lines and their ends -/

/-- Further lines, each after a line end. -/
def laterLines (lines : List Bytes) : Bytes := lines.flatMap (crlf ++ ·)

theorem crlf_append_flatMap (lines : List Bytes) :
    crlf ++ lines.flatMap (· ++ crlf) = laterLines lines ++ crlf := by
  induction lines with
  | nil => rfl
  | cons line lines ih =>
      simp only [laterLines, List.flatMap_cons, List.append_assoc] at ih ⊢
      rw [ih]

/-- Nothing is found inside a line that lacks the first byte of what is looked for. -/
theorem strstr_append_of_notMem (needle : Bytes) {first : UInt8} {line : Bytes}
    (starts : needle.head? = some first) (absent : first ∉ line) (rest : Bytes) :
    strstr (line ++ rest) needle = (strstr rest needle).map (· + line.length) := by
  induction line with
  | nil => simp
  | cons byte line ih =>
      simp only [List.mem_cons, not_or] at absent
      have notHere : needle.isPrefixOf (byte :: (line ++ rest)) = false := by
        cases needle with
        | nil => cases starts
        | cons head needle =>
            cases starts
            simp [List.isPrefixOf, absent.1]
      rw [List.cons_append, strstr, notHere, if_neg Bool.false_ne_true, ih absent.2,
        Option.map_map]
      rfl

theorem strstr_self_append (needle rest : Bytes) : strstr (needle ++ rest) needle = some 0 := by
  rw [strstr_eq_some_iff]
  refine ⟨Nat.zero_le _, List.prefix_append _ _, ?_⟩
  intro earlier impossible
  exact absurd impossible (Nat.not_lt_zero _)

/-- A line end is not the start of an empty line when a line follows. -/
theorem strstr_crlf_append {line : Bytes} (nonempty : line ≠ []) (isLine : 13 ∉ line)
    (rest : Bytes) :
    strstr (crlf ++ (line ++ rest)) headersEnd =
      (strstr (line ++ rest) headersEnd).map (· + 2) := by
  cases line with
  | nil => exact absurd rfl nonempty
  | cons byte line =>
      simp only [List.mem_cons, not_or] at isLine
      have noReturn : (13 == byte) = false := by
        simpa using isLine.1
      simp only [crlf, headersEnd, List.cons_append, List.nil_append, strstr, List.isPrefixOf,
        noReturn]
      simp [Option.map_map]

/-- The first empty line is the one after all lines that are not empty. -/
theorem strstr_headersEnd {line : Bytes} {lines : List Bytes} (isLine : 13 ∉ line)
    (areLines : ∀ other ∈ lines, other ≠ [] ∧ 13 ∉ other) (rest : Bytes) :
    strstr (line ++ laterLines lines ++ (headersEnd ++ rest)) headersEnd =
      some (line ++ laterLines lines).length := by
  induction lines generalizing line with
  | nil =>
      have skipped := strstr_append_of_notMem headersEnd rfl isLine (headersEnd ++ rest)
      rw [strstr_self_append] at skipped
      simpa [laterLines] using skipped
  | cons next lines ih =>
      have nextIs := areLines next List.mem_cons_self
      have later := ih nextIs.2 fun other member => areLines other (List.mem_cons_of_mem _ member)
      have skipped := strstr_append_of_notMem headersEnd rfl isLine
        (crlf ++ (next ++ (laterLines lines ++ (headersEnd ++ rest))))
      rw [strstr_crlf_append nextIs.1 nextIs.2, ← List.append_assoc next, later] at skipped
      have whole : line ++ laterLines (next :: lines) ++ (headersEnd ++ rest) =
          line ++ (crlf ++ (next ++ laterLines lines ++ (headersEnd ++ rest))) := by
        simp [laterLines]
      rw [whole, skipped]
      simp [laterLines, crlf]
      omega

/-- The tokens of the header block are its lines. -/
theorem tokens_laterLines {line : Bytes} {lines : List Bytes}
    (areLines : ∀ other ∈ line :: lines, other ≠ [] ∧ ∀ byte ∈ other, isLineEnd byte = false) :
    tokens isLineEnd (line ++ laterLines lines) = line :: lines := by
  induction lines generalizing line with
  | nil =>
      have isLine := areLines line List.mem_cons_self
      simpa [laterLines] using tokens_eq_singleton isLine.2 isLine.1
  | cons next lines ih =>
      have isLine := areLines line List.mem_cons_self
      have later := ih fun other member => areLines other (List.mem_cons_of_mem _ member)
      have return_ : isLineEnd 13 := by decide
      have feed : isLineEnd 10 := by decide
      change tokens isLineEnd (line ++ 13 :: 10 :: (next ++ laterLines lines)) = _
      rw [tokens_append_delimiter isLine.2 isLine.1 return_, tokens_cons_delimiter feed, later]

/-! ## The parts of a serialized request -/

section Parts

variable {line : Bytes} {lines : List Bytes}

/-- A header section with its body, given by the lines of the section. -/
def sectionText (line : Bytes) (lines : List Bytes) (body : Bytes) : Bytes :=
  line ++ laterLines lines ++ (headersEnd ++ body)

theorem headerPart_sectionText (isLine : 13 ∉ line)
    (areLines : ∀ other ∈ lines, other ≠ [] ∧ 13 ∉ other) (body : Bytes) :
    headerPart (sectionText line lines body) = line ++ laterLines lines := by
  simp only [headerPart, sectionText, strstr_headersEnd isLine areLines]
  exact List.take_left

theorem bodyPart_sectionText (isLine : 13 ∉ line)
    (areLines : ∀ other ∈ lines, other ≠ [] ∧ 13 ∉ other) (body : Bytes) :
    bodyPart (sectionText line lines body) = body := by
  simp only [bodyPart, sectionText, strstr_headersEnd isLine areLines]
  rw [← List.append_assoc]
  exact List.drop_left' (by simp [headersEnd, crlf, Nat.add_assoc])

theorem strstr_crlf_laterLines (isLine : 13 ∉ line) (lines : List Bytes) :
    strstr (line ++ laterLines lines) crlf =
      if lines = [] then none else some line.length := by
  rw [strstr_append_of_notMem crlf rfl isLine]
  cases lines with
  | nil => rfl
  | cons next lines =>
      have here := strstr_self_append crlf (next ++ laterLines lines)
      change (strstr (crlf ++ (next ++ laterLines lines)) crlf).map _ = _
      rw [here]
      simp

theorem requestLinePart_sectionText (isLine : 13 ∉ line)
    (areLines : ∀ other ∈ lines, other ≠ [] ∧ 13 ∉ other) (body : Bytes) :
    requestLinePart (sectionText line lines body) = line := by
  simp only [requestLinePart, headerPart_sectionText isLine areLines,
    strstr_crlf_laterLines isLine]
  cases lines with
  | nil => simp [laterLines]
  | cons next lines => simp

theorem tokens_headersPart_sectionText (isLine : 13 ∉ line)
    (areLines : ∀ other ∈ lines, other ≠ [] ∧ ∀ byte ∈ other, isLineEnd byte = false)
    (body : Bytes) : tokens isLineEnd (headersPart (sectionText line lines body)) = lines := by
  have noReturns : ∀ other ∈ lines, other ≠ [] ∧ 13 ∉ other := by
    intro other member
    refine ⟨(areLines other member).1, ?_⟩
    intro return_
    exact absurd ((areLines other member).2 13 return_) (by decide)
  simp only [headersPart, headerPart_sectionText isLine noReturns, strstr_crlf_laterLines isLine]
  cases lines with
  | nil => rfl
  | cons next lines =>
      have rest : (line ++ laterLines (next :: lines)).drop (line.length + 2) =
          next ++ laterLines lines := by
        rw [← List.drop_drop, List.drop_left]
        rfl
      rw [if_neg (List.cons_ne_nil _ _)]
      dsimp only
      rw [rest]
      exact tokens_laterLines areLines

end Parts

/-! ## The fields of a serialized request -/

theorem notMem_of_clean {text : Bytes} (clean : ∀ byte ∈ text, isLineEnd byte = false) :
    13 ∉ text := by
  intro return_
  exact absurd (clean 13 return_) (by decide)

/-- Text without white space at its ends is its own trimmed text. -/
theorem trim_eq_self {text : Bytes} (starts : ∀ byte ∈ text.head?, isspace byte = false)
    (ends : ∀ byte ∈ text.getLast?, isspace byte = false) : trim text = text := by
  have left : text.dropWhile isspace = text := by
    cases text with
    | nil => rfl
    | cons byte text => simp [starts byte rfl]
  rw [trim, left, List.rdropWhile_eq_self_iff]
  intro nonempty
  simpa using ends _ (List.getLast?_eq_getLast_of_ne_nil nonempty)

theorem trim_blank_cons (text : Bytes) : trim (ch ' ' :: text) = trim text := by
  rw [trim, trim, List.dropWhile_cons_of_pos (by decide)]

namespace HeaderField

variable (field : HeaderField)

theorem headerEntry_line :
    headerEntry field.line = some (field.name.map tolower, trim field.value) := by
  have noColon : ch ':' ∉ field.name := fun colon => (field.nameClean _ colon).1 rfl
  have isTrimmed := trim_eq_self field.starts field.ends
  simp only [headerEntry, line, strchr_append noColon, isTrimmed, if_neg field.nonempty,
    trim_blank_cons]

theorem line_ne_nil : field.line ≠ [] := by
  simp [line]

theorem line_clean : ∀ byte ∈ field.line, isLineEnd byte = false ∧ byte ≠ 0 := by
  intro byte member
  simp only [line, List.mem_append, List.mem_cons] at member
  rcases member with name | rfl | rfl | value
  · exact (field.nameClean byte name).2
  · decide
  · decide
  · exact field.valueClean byte value

end HeaderField

namespace RequestMessage

variable (message : RequestMessage)

theorem requestLine_clean : ∀ byte ∈ message.requestLine, isLineEnd byte = false ∧ byte ≠ 0 := by
  intro byte member
  simp only [requestLine, List.mem_append, List.mem_cons] at member
  rcases member with method | rfl | uri | rfl | httpVersion
  · exact (message.method.clean byte method).2
  · decide
  · exact (message.uri.clean byte uri).2
  · decide
  · exact (message.httpVersion.clean byte httpVersion).2

theorem tokens_requestLine : tokens isBlank message.requestLine =
    [message.method.text, message.uri.text, message.httpVersion.text] := by
  have blank : isBlank (ch ' ') := by decide
  have free : ∀ token : RequestToken, ∀ byte ∈ token.text, isBlank byte = false :=
    fun token byte member => (token.clean byte member).1
  rw [requestLine, tokens_append_delimiter (free _) message.method.nonempty blank,
    tokens_append_delimiter (free _) message.uri.nonempty blank,
    tokens_eq_singleton (free _) message.httpVersion.nonempty]

theorem serialize_eq : message.serialize =
    sectionText message.requestLine (message.headers.map HeaderField.line) message.body := by
  have rotated := crlf_append_flatMap (message.headers.map HeaderField.line)
  rw [List.flatMap_map] at rotated
  rw [serialize, List.append_assoc message.requestLine, rotated, sectionText, headersEnd]
  simp only [List.append_assoc]

theorem zero_notMem_serialize : 0 ∉ message.serialize := by
  intro zero
  simp only [serialize, List.mem_append, List.mem_flatMap] at zero
  rcases zero with (((inLine | inCrlf) | ⟨field, -, inField⟩) | inCrlf) | inBody
  · exact (message.requestLine_clean 0 inLine).2 rfl
  · exact absurd inCrlf (by decide)
  · rcases inField with inField | inCrlf
    · exact (field.line_clean 0 inField).2 rfl
    · exact absurd inCrlf (by decide)
  · exact absurd inCrlf (by decide)
  · exact message.bodyClean inBody

/--
What the parser makes of the serialized text, wherever in memory it stands
before a NUL.
-/
structure ReadBack (request : HTTPRequest) : Prop where
  method : request.method = some message.method.text
  uri : request.uri = some message.uri.text
  httpVersion : request.httpVersion = some message.httpVersion.text
  headerFields : ∀ key, request.headerFields.searchDict key =
    (message.headers.find? fun field => field.name.map tolower = key).map fun field =>
      trim field.value
  data : request.data = if message.body = [] then none else some message.body

theorem httpRequestConstructor_serialize (rest : Bytes) :
    message.ReadBack (httpRequestConstructor (cstr (message.serialize ++ 0 :: rest))) := by
  have lineIs := notMem_of_clean fun byte member => (message.requestLine_clean byte member).1
  have clean : ∀ line ∈ message.headers.map HeaderField.line,
      line ≠ [] ∧ ∀ byte ∈ line, isLineEnd byte = false := by
    intro line member
    rcases List.mem_map.mp member with ⟨field, -, rfl⟩
    exact ⟨field.line_ne_nil, fun byte inside => (field.line_clean byte inside).1⟩
  have noReturns : ∀ line ∈ message.headers.map HeaderField.line, line ≠ [] ∧ 13 ∉ line :=
    fun line member => ⟨(clean line member).1, notMem_of_clean (clean line member).2⟩
  have read : cstr (message.serialize ++ 0 :: rest) =
      sectionText message.requestLine (message.headers.map HeaderField.line) message.body := by
    rw [cstr_append_zero, cstr_eq_self message.zero_notMem_serialize, serialize_eq]
  rw [read]
  have line := requestLinePart_sectionText lineIs noReturns message.body
  have entries : headerEntries (headersPart (sectionText message.requestLine
      (message.headers.map HeaderField.line) message.body)) =
      message.headers.map fun field => (field.name.map tolower, trim field.value) := by
    rw [headerEntries, tokens_headersPart_sectionText lineIs clean, List.filterMap_map]
    simp only [Function.comp_def, HeaderField.headerEntry_line, List.filterMap_eq_map']
  exact
    { method := by
        rw [method_httpRequestConstructor, line, tokens_requestLine]
        rfl
      uri := by
        rw [uri_httpRequestConstructor, line, tokens_requestLine]
        rfl
      httpVersion := by
        rw [httpVersion_httpRequestConstructor, line, tokens_requestLine]
        rfl
      headerFields := by
        intro key
        rw [headerFields_httpRequestConstructor, Dictionary.searchDict_foldl_insertDict,
          Dictionary.searchDict_constructor, Option.none_or, entries, List.find?_map,
          Option.map_map]
        rfl
      data := by
        rw [data_httpRequestConstructor, bodyPart_sectionText lineIs noReturns] }

end RequestMessage

/-- A request with a header whose value holds a colon. -/
def hostRequest : RequestMessage where
  method := ⟨bytes "GET", by decide, List.forall_iff_forall_mem.mp (by decide)⟩
  uri := ⟨bytes "/", by decide, List.forall_iff_forall_mem.mp (by decide)⟩
  httpVersion := ⟨bytes "HTTP/1.1", by decide, List.forall_iff_forall_mem.mp (by decide)⟩
  headers := [{
    name := bytes "Host"
    value := bytes "a:80"
    nonempty := by decide
    starts := by
      intro byte isHead
      cases isHead
      rfl
    ends := by
      intro byte isLast
      cases isLast
      rfl
    nameClean := List.forall_iff_forall_mem.mp (by decide)
    valueClean := List.forall_iff_forall_mem.mp (by decide) }]
  body := []
  bodyClean := List.not_mem_nil

example : hostRequest.serialize = bytes "GET / HTTP/1.1\r\nHost: a:80\r\n\r\n" := by decide

end LetUsConnect
