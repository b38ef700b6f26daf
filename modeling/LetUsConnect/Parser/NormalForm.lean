import LetUsConnect.Parser.RoundTrip

/-!
# The normal form of a request

The parser keeps less of a request than its text: blanks around the parts of a line,
capital letters in header names, lines without a colon and all but three words of the
request line are lost. What it keeps is written down again as a well-formed message,
the normal form, which the parser takes for the same request.
-/

namespace LetUsConnect

open CString HTTPRequest

/-! ## What the parser keeps of a text -/

theorem headerPart_subset (text : Bytes) : headerPart text ⊆ text := by
  rw [headerPart]
  split
  · exact List.Subset.refl _
  · exact (List.take_prefix _ _).subset

theorem requestLinePart_subset (text : Bytes) : requestLinePart text ⊆ text := by
  rw [requestLinePart]
  split
  · exact headerPart_subset text
  · exact List.Subset.trans (List.take_prefix _ _).subset (headerPart_subset text)

theorem headersPart_subset (text : Bytes) : headersPart text ⊆ text := by
  rw [headersPart]
  split
  · exact List.nil_subset _
  · exact List.Subset.trans (List.drop_suffix _ _).subset (headerPart_subset text)

theorem bodyPart_subset (text : Bytes) : bodyPart text ⊆ text := by
  rw [bodyPart]
  split
  · exact List.nil_subset _
  · exact (List.drop_suffix _ _).subset

theorem insertToken_congr (request : HTTPRequest) (key : String)
    {token other : Option (Bytes × Bytes)} (same : token.map Prod.fst = other.map Prod.fst) :
    request.insertToken key token = request.insertToken key other := by
  cases token <;> cases other <;> simp only [Option.map_none, Option.map_some] at same <;>
    first | rfl | cases same | skip
  rw [insertToken, insertToken, Option.some.inj same]

/-- The first three words that `strtok_r` returns are the first three tokens. -/
theorem strtok_words (line : Bytes) :
    (strtok isBlank line).map Prod.fst = (tokens isBlank line)[0]? ∧
      ((strtok isBlank line).bind fun token => strtok isBlank token.2).map Prod.fst =
        (tokens isBlank line)[1]? ∧
      (((strtok isBlank line).bind fun token => strtok isBlank token.2).bind
        fun token => strtok isBlank token.2).map Prod.fst = (tokens isBlank line)[2]? := by
  rw [tokens_eq_strtok]
  cases first : strtok isBlank line with
  | none => simp
  | some method =>
      dsimp only [Option.bind_some]
      rw [tokens_eq_strtok isBlank method.2]
      cases second : strtok isBlank method.2 with
      | none => simp
      | some uri =>
          dsimp only [Option.bind_some]
          rw [tokens_eq_strtok isBlank uri.2]
          cases third : strtok isBlank uri.2 <;> simp

theorem extractRequestLineFields_congr (request : HTTPRequest) {line other : Bytes}
    (same : (tokens isBlank line).take 3 = (tokens isBlank other).take 3) :
    request.extractRequestLineFields line = request.extractRequestLineFields other := by
  have word : ∀ index < 3, (tokens isBlank line)[index]? = (tokens isBlank other)[index]? := by
    intro index bound
    have both := congrArg (fun words => words[index]?) same
    simpa [List.getElem?_take, bound] using both
  rcases strtok_words line with ⟨method, uri, httpVersion⟩
  rcases strtok_words other with ⟨otherMethod, otherUri, otherVersion⟩
  rw [extractRequestLineFields, extractRequestLineFields,
    insertToken_congr request _ (method.trans ((word 0 (by decide)).trans otherMethod.symm)),
    insertToken_congr _ _ (uri.trans ((word 1 (by decide)).trans otherUri.symm)),
    insertToken_congr _ _ (httpVersion.trans ((word 2 (by decide)).trans otherVersion.symm))]

/-- The request is made of three words, the header lines that count and the body. -/
theorem httpRequestConstructor_congr {text other : Bytes}
    (line : (tokens isBlank (requestLinePart text)).take 3 =
      (tokens isBlank (requestLinePart other)).take 3)
    (headers : headerEntries (headersPart text) = headerEntries (headersPart other))
    (body : bodyPart text = bodyPart other) :
    httpRequestConstructor text = httpRequestConstructor other := by
  have same : withoutBody text = withoutBody other := by
    rw [withoutBody, withoutBody, extractHeaderFields_eq, extractHeaderFields_eq, headers,
      extractRequestLineFields_congr empty line]
  rw [httpRequestConstructor_eq, httpRequestConstructor_eq, same, body]

/-! ## Header lines -/

/-- A header as the parser keeps it. -/
structure KeptEntry (entry : Bytes × Bytes) : Prop where
  nonempty : entry.1 ≠ []
  starts : ∀ byte ∈ entry.1.head?, isspace byte = false
  ends : ∀ byte ∈ entry.1.getLast?, isspace byte = false
  nameClean : ∀ byte ∈ entry.1, byte ≠ ch ':' ∧ isLineEnd byte = false ∧ byte ≠ 0
  valueClean : ∀ byte ∈ entry.2, isLineEnd byte = false ∧ byte ≠ 0
  lower : entry.1.map tolower = entry.1
  trimmed : trim entry.2 = entry.2

theorem head_trim {text : Bytes} : ∀ byte ∈ (trim text).head?, isspace byte = false := by
  intro byte isHead
  rcases List.rdropWhile_prefix isspace (text.dropWhile isspace) with ⟨rest, whole⟩
  change trim text ++ rest = _ at whole
  have starts : (text.dropWhile isspace).head? = some byte := by
    rw [← whole, List.head?_append, isHead]
    rfl
  have nonempty : text.dropWhile isspace ≠ [] := by
    intro nil
    rw [nil] at starts
    cases starts
  have stops := List.head_dropWhile_not isspace nonempty
  rw [List.head?_eq_some_head nonempty] at starts
  rwa [Option.some.inj starts] at stops

theorem last_trim {text : Bytes} : ∀ byte ∈ (trim text).getLast?, isspace byte = false := by
  intro byte isLast
  have nonempty : trim text ≠ [] := by
    intro nil
    rw [nil] at isLast
    cases isLast
  have stops := List.rdropWhile_last_not isspace (text.dropWhile isspace) nonempty
  rw [List.getLast?_eq_getLast_of_ne_nil nonempty] at isLast
  rw [← Option.some.inj isLast]
  exact Bool.eq_false_iff.mpr stops

theorem trim_trim (text : Bytes) : trim (trim text) = trim text :=
  trim_eq_self head_trim last_trim

/-- Small letters end where capital letters did. -/
theorem map_tolower_ends {text : Bytes} (starts : ∀ byte ∈ text.head?, isspace byte = false)
    (ends : ∀ byte ∈ text.getLast?, isspace byte = false) :
    (∀ byte ∈ (text.map tolower).head?, isspace byte = false) ∧
      ∀ byte ∈ (text.map tolower).getLast?, isspace byte = false := by
  constructor
  · intro byte isHead
    rw [List.head?_map] at isHead
    rcases Option.map_eq_some_iff.mp isHead with ⟨capital, head, rfl⟩
    rw [isspace_tolower]
    exact starts capital head
  · intro byte isLast
    rw [List.getLast?_map] at isLast
    rcases Option.map_eq_some_iff.mp isLast with ⟨capital, last, rfl⟩
    rw [isspace_tolower]
    exact ends capital last

theorem isLineEnd_tolower {byte : UInt8} (clean : isLineEnd byte = false) :
    isLineEnd (tolower byte) = false := by
  simp only [isLineEnd, Bool.or_eq_false_iff, beq_eq_false_iff_ne] at clean ⊢
  exact ⟨tolower_ne clean.1 (by decide), tolower_ne clean.2 (by decide)⟩

theorem nameClean_tolower {name : Bytes}
    (clean : ∀ byte ∈ name, byte ≠ ch ':' ∧ isLineEnd byte = false ∧ byte ≠ 0) :
    ∀ byte ∈ name.map tolower, byte ≠ ch ':' ∧ isLineEnd byte = false ∧ byte ≠ 0 := by
  intro byte member
  rcases List.mem_map.mp member with ⟨capital, inName, rfl⟩
  rcases clean capital inName with ⟨noColon, noEnd, noNul⟩
  exact ⟨tolower_ne noColon (by decide), isLineEnd_tolower noEnd, tolower_ne noNul (by decide)⟩

theorem map_tolower_map_tolower (name : Bytes) :
    (name.map tolower).map tolower = name.map tolower := by
  rw [List.map_map]
  exact List.map_congr_left fun byte _ => tolower_tolower byte

/-- Every header line that counts is kept in this form. -/
theorem keptEntry_of_mem {headers : Bytes} (noNul : 0 ∉ headers) {entry : Bytes × Bytes}
    (member : entry ∈ headerEntries headers) : KeptEntry entry := by
  rcases List.mem_filterMap.mp member with ⟨line, isLine, isEntry⟩
  rcases mem_tokens isLine with ⟨inside, -, noEnds⟩
  have clean : ∀ byte ∈ line, isLineEnd byte = false ∧ byte ≠ 0 := by
    intro byte inLine
    refine ⟨noEnds byte inLine, ?_⟩
    rintro rfl
    exact noNul (inside.subset inLine)
  rw [headerEntry] at isEntry
  split at isEntry
  · cases isEntry
  · rename_i name value found
    split_ifs at isEntry with nameless
    cases isEntry
    rcases eq_append_of_strchr found with ⟨whole, noColon⟩
    have inName : ∀ byte ∈ trim name, byte ∈ line := by
      intro byte inTrim
      rw [whole]
      exact List.mem_append_left _ (mem_of_mem_trim inTrim)
    have ends := map_tolower_ends (@head_trim name) (@last_trim name)
    have nameClean : ∀ byte ∈ trim name, byte ≠ ch ':' ∧ isLineEnd byte = false ∧ byte ≠ 0 := by
      intro byte inTrim
      refine ⟨?_, clean byte (inName byte inTrim)⟩
      rintro rfl
      exact noColon (mem_of_mem_trim inTrim)
    refine ⟨?_, ends.1, ends.2, nameClean_tolower nameClean, ?_, map_tolower_map_tolower _,
      trim_trim value⟩
    · intro nil
      exact nameless (List.map_eq_nil_iff.mp nil)
    · intro byte inTrim
      apply clean
      rw [whole]
      exact List.mem_append_right _ (List.mem_cons_of_mem _ (mem_of_mem_trim inTrim))

def HeaderField.ofEntry (entry : Bytes × Bytes) (kept : KeptEntry entry) : HeaderField where
  name := entry.1
  value := entry.2
  nonempty := kept.nonempty
  starts := kept.starts
  ends := kept.ends
  nameClean := kept.nameClean
  valueClean := kept.valueClean

/-- The header with a name in small letters and no blanks around its value. -/
def HeaderField.canonical (field : HeaderField) : HeaderField where
  name := field.name.map tolower
  value := trim field.value
  nonempty := fun nil => field.nonempty (List.map_eq_nil_iff.mp nil)
  starts := (map_tolower_ends field.starts field.ends).1
  ends := (map_tolower_ends field.starts field.ends).2
  nameClean := nameClean_tolower field.nameClean
  valueClean := fun byte member => field.valueClean byte (mem_of_mem_trim member)

/-! ## The normal form -/

/-- What a word of a request line may be. -/
def IsWord (text : Bytes) : Prop :=
  text ≠ [] ∧ ∀ byte ∈ text, isBlank byte = false ∧ isLineEnd byte = false ∧ byte ≠ 0

instance (text : Bytes) : Decidable (IsWord text) :=
  @instDecidableAnd _ _ _ (List.decidableBAll _ text)

def RequestToken.ofText (text : Bytes) : Option RequestToken :=
  if isWord : IsWord text then some ⟨text, isWord.1, isWord.2⟩ else none

theorem headersPart_noNul (memory : Bytes) : 0 ∉ headersPart (cstr memory) :=
  fun zero => zero_notMem_cstr memory (headersPart_subset _ zero)

theorem bodyPart_noNul (memory : Bytes) : 0 ∉ bodyPart (cstr memory) :=
  fun zero => zero_notMem_cstr memory (bodyPart_subset _ zero)

/-- What the parser keeps of the text in the memory, unless its request line is not three words. -/
def normalForm (memory : Bytes) : Option RequestMessage :=
  match tokens isBlank (requestLinePart (cstr memory)) with
  | method :: uri :: httpVersion :: _ => do
      let method ← RequestToken.ofText method
      let uri ← RequestToken.ofText uri
      let httpVersion ← RequestToken.ofText httpVersion
      return {
        method
        uri
        httpVersion
        headers := (headerEntries (headersPart (cstr memory))).pmap HeaderField.ofEntry
          fun _ => keptEntry_of_mem (headersPart_noNul memory)
        body := bodyPart (cstr memory)
        bodyClean := bodyPart_noNul memory }
  | _ => none

def RequestMessage.canonical (message : RequestMessage) : RequestMessage :=
  { message with headers := message.headers.map HeaderField.canonical }

/-! ## The parts of a message -/

namespace RequestMessage

variable (message : RequestMessage)

theorem clean_lines : ∀ line ∈ message.headers.map HeaderField.line,
    line ≠ [] ∧ ∀ byte ∈ line, isLineEnd byte = false := by
  intro line member
  rcases List.mem_map.mp member with ⟨field, -, rfl⟩
  exact ⟨field.line_ne_nil, fun byte inside => (field.line_clean byte inside).1⟩

theorem noReturn_lines : ∀ line ∈ message.headers.map HeaderField.line, line ≠ [] ∧ 13 ∉ line :=
  fun line member => ⟨(message.clean_lines line member).1,
    notMem_of_clean (message.clean_lines line member).2⟩

theorem noReturn_requestLine : 13 ∉ message.requestLine :=
  notMem_of_clean fun byte member => (message.requestLine_clean byte member).1

theorem tokens_requestLinePart : tokens isBlank (requestLinePart message.serialize) =
    [message.method.text, message.uri.text, message.httpVersion.text] := by
  rw [serialize_eq, requestLinePart_sectionText message.noReturn_requestLine
    message.noReturn_lines, tokens_requestLine]

theorem headerEntries_serialize : headerEntries (headersPart message.serialize) =
    message.headers.map fun field => (field.name.map tolower, trim field.value) := by
  rw [headerEntries, serialize_eq,
    tokens_headersPart_sectionText message.noReturn_requestLine message.clean_lines,
    List.filterMap_map]
  simp only [Function.comp_def, HeaderField.headerEntry_line, List.filterMap_eq_map']

theorem bodyPart_serialize : bodyPart message.serialize = message.body := by
  rw [serialize_eq, bodyPart_sectionText message.noReturn_requestLine message.noReturn_lines]

end RequestMessage

theorem RequestToken.ofText_text (token : RequestToken) :
    RequestToken.ofText token.text = some token :=
  dif_pos ⟨token.nonempty, token.clean⟩

theorem RequestToken.text_ofText {text : Bytes} {token : RequestToken}
    (isToken : RequestToken.ofText text = some token) : token.text = text := by
  rw [RequestToken.ofText] at isToken
  split_ifs at isToken
  cases isToken
  rfl

theorem pmap_ofEntry (fields : List HeaderField) (kept : ∀ entry ∈ fields.map fun field =>
    (field.name.map tolower, trim field.value), KeptEntry entry) :
    (fields.map fun field => (field.name.map tolower, trim field.value)).pmap HeaderField.ofEntry
      kept = fields.map HeaderField.canonical := by
  induction fields with
  | nil => rfl
  | cons field fields ih =>
      simp only [List.map_cons, List.pmap_cons, ih]
      rfl

/-- The normal form of a message. -/
theorem normalForm_of_message {memory : Bytes} (message : RequestMessage)
    (written : cstr memory = message.serialize) : normalForm memory = some message.canonical := by
  have line : tokens isBlank (requestLinePart (cstr memory)) =
      [message.method.text, message.uri.text, message.httpVersion.text] := by
    rw [written, message.tokens_requestLinePart]
  have headers : ∀ (entries : List (Bytes × Bytes)) (kept : ∀ entry ∈ entries, KeptEntry entry),
      entries = headerEntries (headersPart message.serialize) →
      entries.pmap HeaderField.ofEntry kept = message.headers.map HeaderField.canonical := by
    rintro entries kept rfl
    revert kept
    rw [message.headerEntries_serialize]
    exact pmap_ofEntry message.headers
  have body : bodyPart (cstr memory) = message.body := by
    rw [written, message.bodyPart_serialize]
  rw [normalForm, line]
  simp only [RequestToken.ofText_text, Option.bind_eq_bind, Option.bind_some, Option.pure_def,
    headers _ _ (congrArg (fun text => headerEntries (headersPart text)) written), body]
  rfl

/-- The three words of the request line, without a bare line end in them. -/
def ThreeWords (words : List Bytes) : Prop :=
  ∃ method uri httpVersion rest, words = method :: uri :: httpVersion :: rest ∧
    ∀ byte ∈ method ++ (uri ++ httpVersion), isLineEnd byte = false

/-- A normal form keeps the words, the headers that count and the body. -/
theorem parts_of_normalForm {memory : Bytes} {message : RequestMessage}
    (isNormal : normalForm memory = some message) :
    (∃ rest, tokens isBlank (requestLinePart (cstr memory)) =
        message.method.text :: message.uri.text :: message.httpVersion.text :: rest) ∧
      (message.headers.map fun field => (field.name, field.value)) =
        headerEntries (headersPart (cstr memory)) ∧
      message.body = bodyPart (cstr memory) := by
  rw [normalForm] at isNormal
  split at isNormal
  case h_2 => cases isNormal
  case h_1 method uri httpVersion rest words =>
    simp only [Option.bind_eq_bind, Option.bind_eq_some_iff, Option.pure_def] at isNormal
    rcases isNormal with ⟨methodToken, isMethod, uriToken, isUri, versionToken, isVersion, made⟩
    cases made
    refine ⟨⟨rest, ?_⟩, ?_, rfl⟩
    · rw [words, RequestToken.text_ofText isMethod, RequestToken.text_ofText isUri,
        RequestToken.text_ofText isVersion]
    · rw [List.map_pmap]
      exact List.pmap_eq_self.mpr fun _ _ => rfl

theorem ofText_isSome {memory token : Bytes}
    (member : token ∈ tokens isBlank (requestLinePart (cstr memory)))
    (clean : ∀ byte ∈ token, isLineEnd byte = false) :
    ∃ isToken, RequestToken.ofText token = some isToken := by
  rcases mem_tokens member with ⟨inside, nonempty, noBlank⟩
  rw [RequestToken.ofText, dif_pos]
  · exact ⟨_, rfl⟩
  · refine ⟨nonempty, fun byte inToken => ⟨noBlank byte inToken, clean byte inToken, ?_⟩⟩
    rintro rfl
    exact zero_notMem_cstr memory (requestLinePart_subset _ (inside.subset inToken))

/-- There is a normal form exactly if the request line has three words. -/
theorem normalForm_isSome_iff (memory : Bytes) :
    (normalForm memory).isSome ↔ ThreeWords (tokens isBlank (requestLinePart (cstr memory))) := by
  constructor
  · intro isNormal
    rcases Option.isSome_iff_exists.mp isNormal with ⟨message, isMessage⟩
    rcases (parts_of_normalForm isMessage).1 with ⟨rest, words⟩
    refine ⟨_, _, _, rest, words, ?_⟩
    intro byte member
    simp only [List.mem_append] at member
    rcases member with method | uri | httpVersion
    · exact (message.method.clean byte method).2.1
    · exact (message.uri.clean byte uri).2.1
    · exact (message.httpVersion.clean byte httpVersion).2.1
  · rintro ⟨method, uri, httpVersion, rest, words, clean⟩
    simp only [List.mem_append] at clean
    have isWord : ∀ word ∈ [method, uri, httpVersion],
        word ∈ tokens isBlank (requestLinePart (cstr memory)) := by
      intro word member
      rw [words]
      simp only [List.mem_cons, List.not_mem_nil, or_false] at member ⊢
      tauto
    rcases ofText_isSome (isWord method (by simp)) fun byte member => clean byte (.inl member) with
      ⟨methodToken, isMethod⟩
    rcases ofText_isSome (isWord uri (by simp)) fun byte member =>
      clean byte (.inr (.inl member)) with ⟨uriToken, isUri⟩
    rcases ofText_isSome (isWord httpVersion (by simp)) fun byte member =>
      clean byte (.inr (.inr member)) with ⟨versionToken, isVersion⟩
    rw [normalForm, words]
    simp [isMethod, isUri, isVersion]

/-- The parser takes the normal form for the same request. -/
theorem httpRequestConstructor_normalForm {memory : Bytes} {message : RequestMessage}
    (isNormal : normalForm memory = some message) :
    httpRequestConstructor message.serialize = httpRequestConstructor (cstr memory) := by
  rcases parts_of_normalForm isNormal with ⟨⟨rest, words⟩, headers, body⟩
  have kept : ∀ entry ∈ headerEntries (headersPart (cstr memory)), KeptEntry entry :=
    fun _ => keptEntry_of_mem (headersPart_noNul memory)
  apply httpRequestConstructor_congr
  · rw [message.tokens_requestLinePart, words]
    rfl
  · rw [message.headerEntries_serialize, ← headers]
    rw [← headers] at kept
    refine List.map_congr_left fun field member => ?_
    have isKept := kept _ (List.mem_map_of_mem member)
    rw [isKept.lower, isKept.trimmed]
  · rw [message.bodyPart_serialize, body]

theorem HeaderField.canonical_eq_self {field : HeaderField}
    (lower : field.name.map tolower = field.name) (trimmed : trim field.value = field.value) :
    field.canonical = field := by
  cases field
  simp only [HeaderField.canonical, HeaderField.mk.injEq]
  exact ⟨lower, trimmed⟩

theorem canonical_of_normalForm {memory : Bytes} {message : RequestMessage}
    (isNormal : normalForm memory = some message) : message.canonical = message := by
  have kept : ∀ entry ∈ headerEntries (headersPart (cstr memory)), KeptEntry entry :=
    fun _ => keptEntry_of_mem (headersPart_noNul memory)
  rw [← (parts_of_normalForm isNormal).2.1] at kept
  have headers : message.headers.map HeaderField.canonical = message.headers := by
    refine (List.map_congr_left fun field member => ?_).trans (List.map_id _)
    have isKept := kept _ (List.mem_map_of_mem member)
    exact HeaderField.canonical_eq_self isKept.lower isKept.trimmed
  rw [RequestMessage.canonical, headers]

/-- What the normal form of a text is good for. -/
structure Normalizes (memory : Bytes) : Prop where
  isSome_iff : (normalForm memory).isSome ↔
    ThreeWords (tokens isBlank (requestLinePart (cstr memory)))
  /-- The parser takes it for the same request, dictionary by dictionary. -/
  parsed : ∀ message ∈ normalForm memory,
    httpRequestConstructor message.serialize = httpRequestConstructor (cstr memory)
  canonical : ∀ message ∈ normalForm memory, message.canonical = message
  /-- It is its own normal form. -/
  again : ∀ message ∈ normalForm memory, normalForm message.serialize = some message
  written : ∀ message : RequestMessage, cstr memory = message.serialize →
    normalForm memory = some message.canonical

/--
Every text whose request line has three words has a normal form: a well-formed message
that the parser takes for the same request, and that is its own normal form.
-/
theorem normalizes (memory : Bytes) : Normalizes memory where
  isSome_iff := normalForm_isSome_iff memory
  parsed := fun _ => httpRequestConstructor_normalForm
  canonical := fun _ => canonical_of_normalForm
  again := by
    intro message isNormal
    rw [normalForm_of_message message (cstr_eq_self message.zero_notMem_serialize),
      canonical_of_normalForm isNormal]
  written := normalForm_of_message

example : (normalForm (bytes "GET  /x HTTP/1.1 more\r\nHOST :  A \r\nbad\r\n\r\nhi")).map
    RequestMessage.serialize = some (bytes "GET /x HTTP/1.1\r\nhost: A\r\n\r\nhi") := by
  decide +kernel

end LetUsConnect
