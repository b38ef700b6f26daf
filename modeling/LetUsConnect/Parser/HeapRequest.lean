import LetUsConnect.DataStructures.HeapDictionary
import LetUsConnect.Parser

/-!
# The blocks of a request

`src/parser/http_parser.c` once more, with the blocks that are allocated and
freed from the construction of a request to its destruction. The working copies
of the request and of an urlencoded body are freed by the functions that
allocate them; everything else belongs to the three dictionaries.

The number of blocks a request leaves behind is computed exactly. It is zero
only for requests with almost no content, see `LeavesNothing`.
-/

namespace LetUsConnect

open Blocks CString
open scoped Pointwise

/-- The dictionaries of a request. -/
inductive RequestPart where
  | requestLine
  | headerFields
  | body
  deriving DecidableEq

/-- A call of `search_dict` on one of the dictionaries; the key may be `NULL`. -/
structure RequestSearch where
  part : RequestPart
  key : Option Bytes

/-- `struct HTTPRequest` with the blocks of its dictionaries. -/
structure HeapRequest (Block : Type) where
  requestLine : HeapDictionary Block
  headerFields : HeapDictionary Block
  body : HeapDictionary Block

namespace HeapRequest

variable {Block : Type}

/-- The request before any field is extracted. -/
def empty : HeapRequest Block :=
  ⟨heapDictionaryConstructor, heapDictionaryConstructor, heapDictionaryConstructor⟩

def part (request : HeapRequest Block) : RequestPart → HeapDictionary Block
  | .requestLine => request.requestLine
  | .headerFields => request.headerFields
  | .body => request.body

section Operations

variable [DecidableEq Block] (allocator : Allocator Block)

/-- `request->part.insert(&request->part, key, ..., value, ...)`. -/
def insert (request : HeapRequest Block) (part : RequestPart) (key value : Bytes) :
    Program Block (HeapRequest Block) := do
  let dictionary ← (request.part part).insertDict allocator key value
  match part with
  | .requestLine => return { request with requestLine := dictionary }
  | .headerFields => return { request with headerFields := dictionary }
  | .body => return { request with body := dictionary }

/-- Inserts a token of the request line unless it is `NULL`. -/
def insertToken (request : HeapRequest Block) (key : String) (token : Option (Bytes × Bytes)) :
    Program Block (HeapRequest Block) :=
  match token with
  | none => return request
  | some (value, _) => request.insert allocator .requestLine (bytes key) value

def extractRequestLineFields (request : HeapRequest Block) (requestLine : Bytes) :
    Program Block (HeapRequest Block) := do
  let method := strtok isBlank requestLine
  let uri := method.bind fun token => strtok isBlank token.2
  let httpVersion := uri.bind fun token => strtok isBlank token.2
  let request ← request.insertToken allocator "method" method
  let request ← request.insertToken allocator "uri" uri
  request.insertToken allocator "http_version" httpVersion

/-- The body of the loop of `extract_header_fields`. -/
def extractHeaderLine (request : HeapRequest Block) (line : Bytes) :
    Program Block (HeapRequest Block) :=
  match HTTPRequest.headerEntry line with
  | none => return request
  | some (key, value) => request.insert allocator .headerFields key value

def extractHeaderFields (request : HeapRequest Block) (headerFields : Bytes) :
    Program Block (HeapRequest Block) :=
  (tokens isLineEnd headerFields).foldlM (extractHeaderLine allocator) request

/-- The body of the loop of `extract_body`. -/
def extractPair (request : HeapRequest Block) (pair : Bytes) :
    Program Block (HeapRequest Block) :=
  match strchr pair (ch '=') with
  | none => return request
  | some (key, value) => request.insert allocator .body key value

def extractBody (request : HeapRequest Block) (body : Bytes) :
    Program Block (HeapRequest Block) := do
  let request ← request.insert allocator .body (bytes "data") body
  let contentType ← request.headerFields.searchDict allocator (some (bytes "content-type"))
  match contentType with
  | none => return request
  | some contentType =>
      if (strstr contentType (bytes "application/x-www-form-urlencoded")).isSome then do
        let bodyCopy ← allocator.malloc
        let request ← (tokens isAmpersand body).foldlM (extractPair allocator) request
        free bodyCopy
        return request
      else return request

/-- Extracts the fields of a part of the text unless that part is empty. -/
def extractUnlessEmpty
    (extract : HeapRequest Block → Bytes → Program Block (HeapRequest Block))
    (request : HeapRequest Block) (part : Bytes) : Program Block (HeapRequest Block) :=
  if part = [] then return request else extract request part

def httpRequestConstructor (requestString : Bytes) : Program Block (HeapRequest Block) :=
  if requestString = [] then return empty
  else do
    let requested ← allocator.malloc
    let request ← extractUnlessEmpty (extractRequestLineFields allocator) empty
      (requestLinePart requestString)
    let request ← extractUnlessEmpty (extractHeaderFields allocator) request
      (headersPart requestString)
    let request ← extractUnlessEmpty (extractBody allocator) request (bodyPart requestString)
    free requested
    return request

def httpRequestDestructor (request : HeapRequest Block) : Program Block PUnit := do
  request.requestLine.dictionaryDestructor
  request.headerFields.dictionaryDestructor
  request.body.dictionaryDestructor

/-- Searches whose results are looked at and dropped. -/
def runSearches (request : HeapRequest Block) : List RequestSearch → Program Block PUnit
  | [] => return ⟨⟩
  | search :: searches => do
      let _ ← (request.part search.part).searchDict allocator search.key
      request.runSearches searches

/-- A request from its construction to its destruction. -/
def requestLife (requestString : Bytes) (searches : List RequestSearch) : Program Block PUnit := do
  let request ← httpRequestConstructor allocator requestString
  request.runSearches allocator searches
  request.httpRequestDestructor

end Operations

/-! ## What a request holds -/

/-- The blocks of the three dictionaries, lost ones included. -/
def holding (request : HeapRequest Block) : Holding Block :=
  request.requestLine.holding + request.headerFields.holding + request.body.holding

theorem holding_eq_headerFields_add (request : HeapRequest Block) :
    request.holding = request.headerFields.holding +
      (request.requestLine.holding + request.body.holding) := by
  rw [holding, add_comm request.requestLine.holding, add_assoc]

/-- The request stands for one without blocks. -/
structure Refines (request : HeapRequest Block) (abstract : HTTPRequest) : Prop where
  requestLine : request.requestLine.Refines abstract.requestLine
  headerFields : request.headerFields.Refines abstract.headerFields
  body : request.body.Refines abstract.body

theorem refines_empty : (empty : HeapRequest Block).Refines HTTPRequest.empty where
  requestLine := HeapDictionary.refines_constructor
  headerFields := HeapDictionary.refines_constructor
  body := HeapDictionary.refines_constructor

theorem holding_empty : (empty : HeapRequest Block).holding = 0 := by
  rw [holding, empty, HeapDictionary.holding_constructor, add_zero, add_zero]

end HeapRequest

namespace HTTPRequest

def part (request : HTTPRequest) : RequestPart → Dictionary Bytes
  | .requestLine => request.requestLine
  | .headerFields => request.headerFields
  | .body => request.body

/-- The insertion into one of the dictionaries. -/
def insert (request : HTTPRequest) (part : RequestPart) (key value : Bytes) : HTTPRequest :=
  match part with
  | .requestLine => { request with requestLine := request.requestLine.insertDict key value }
  | .headerFields => { request with headerFields := request.headerFields.insertDict key value }
  | .body => { request with body := request.body.insertDict key value }

end HTTPRequest

namespace HeapRequest

variable {Block : Type}

theorem Refines.part {request : HeapRequest Block} {abstract : HTTPRequest}
    (refines : request.Refines abstract) (part : RequestPart) :
    (request.part part).Refines (abstract.part part) := by
  cases part with
  | requestLine => exact refines.requestLine
  | headerFields => exact refines.headerFields
  | body => exact refines.body

/-! ## Specifications -/

section Specifications

variable [DecidableEq Block] (allocator : Allocator Block)

theorem insert_spec {request : HeapRequest Block} {abstract : HTTPRequest}
    (refines : request.Refines abstract) (part : RequestPart) (key value : Bytes) :
    Triple request.holding (request.insert allocator part key value)
      (fun after => after.Refines (abstract.insert part key value)) holding := by
  have inserted := HeapDictionary.insertDict_spec allocator (refines.part part) key value
  cases part with
  | requestLine =>
      apply inserted.seq (add_assoc _ _ _)
      intro dictionary refined
      apply Triple.pure
      · exact ⟨refined, refines.headerFields, refines.body⟩
      · rw [holding, add_assoc]
  | headerFields =>
      apply inserted.seq request.holding_eq_headerFields_add
      intro dictionary refined
      apply Triple.pure
      · exact ⟨refines.requestLine, refined, refines.body⟩
      · rw [holding_eq_headerFields_add]
  | body =>
      apply inserted.seq (add_comm _ _)
      intro dictionary refined
      apply Triple.pure
      · exact ⟨refines.requestLine, refines.headerFields, refined⟩
      · rw [holding, add_comm]

theorem insertToken_spec {request : HeapRequest Block} {abstract : HTTPRequest}
    (refines : request.Refines abstract) (key : String) (token : Option (Bytes × Bytes)) :
    Triple request.holding (request.insertToken allocator key token)
      (fun after => after.Refines (abstract.insertToken key token)) holding := by
  cases token with
  | none => exact Triple.pure refines subset_rfl
  | some token => exact insert_spec allocator refines .requestLine (bytes key) token.1

theorem extractRequestLineFields_spec {request : HeapRequest Block} {abstract : HTTPRequest}
    (refines : request.Refines abstract) (requestLine : Bytes) :
    Triple request.holding (request.extractRequestLineFields allocator requestLine)
      (fun after => after.Refines (abstract.extractRequestLineFields requestLine)) holding := by
  apply (insertToken_spec allocator refines "method" _).bind
  intro withMethod refinesMethod
  apply (insertToken_spec allocator refinesMethod "uri" _).bind
  intro withUri refinesUri
  exact insertToken_spec allocator refinesUri "http_version" _

theorem extractHeaderLine_spec {request : HeapRequest Block} {abstract : HTTPRequest}
    (refines : request.Refines abstract) (line : Bytes) :
    Triple request.holding (request.extractHeaderLine allocator line)
      (fun after => after.Refines (abstract.extractHeaderLine line)) holding := by
  rw [extractHeaderLine, HTTPRequest.extractHeaderLine]
  cases HTTPRequest.headerEntry line with
  | none => exact Triple.pure refines subset_rfl
  | some entry => exact insert_spec allocator refines .headerFields entry.1 entry.2

theorem extractHeaderFields_spec {request : HeapRequest Block} {abstract : HTTPRequest}
    (refines : request.Refines abstract) (headerFields : Bytes) :
    Triple request.holding (request.extractHeaderFields allocator headerFields)
      (fun after => after.Refines (abstract.extractHeaderFields headerFields)) holding := by
  have step : ∀ (filled : HeapRequest Block) (abstract : HTTPRequest) (line : Bytes),
      filled.Refines abstract → Triple filled.holding (filled.extractHeaderLine allocator line)
        (fun after => after.Refines (abstract.extractHeaderLine line)) holding :=
    fun _ _ line related => extractHeaderLine_spec allocator related line
  exact Triple.foldlM step (tokens isLineEnd headerFields) refines

theorem extractPair_spec {request : HeapRequest Block} {abstract : HTTPRequest}
    (refines : request.Refines abstract) (pair : Bytes) :
    Triple request.holding (request.extractPair allocator pair)
      (fun after => after.Refines (abstract.extractPair pair)) holding := by
  rw [extractPair, HTTPRequest.extractPair]
  cases strchr pair (ch '=') with
  | none => exact Triple.pure refines subset_rfl
  | some entry => exact insert_spec allocator refines .body entry.1 entry.2

theorem foldlM_extractPair_spec {request : HeapRequest Block} {abstract : HTTPRequest}
    (refines : request.Refines abstract) (pairs : List Bytes) :
    Triple request.holding (pairs.foldlM (extractPair allocator) request)
      (fun after => after.Refines (pairs.foldl HTTPRequest.extractPair abstract)) holding := by
  have step : ∀ (filled : HeapRequest Block) (abstract : HTTPRequest) (pair : Bytes),
      filled.Refines abstract → Triple filled.holding (filled.extractPair allocator pair)
        (fun after => after.Refines (abstract.extractPair pair)) holding :=
    fun _ _ pair related => extractPair_spec allocator related pair
  exact Triple.foldlM step pairs refines

/-- Looking for the content type loses an entry when there are header fields. -/
theorem extractBody_spec {request : HeapRequest Block} {abstract : HTTPRequest}
    (refines : request.Refines abstract) (body : Bytes) :
    Triple request.holding (request.extractBody allocator body)
      (fun after => after.Refines (abstract.extractBody body))
      (fun after => after.holding + lost (if abstract.headerFields.keys = [] then 0 else 2)) := by
  apply (insert_spec allocator refines .body (bytes "data") body).bind
  intro stored refinesStored
  have searched := HeapDictionary.searchDict_spec allocator refinesStored.headerFields
    (some (bytes "content-type"))
  apply searched.seq (zero_add _).symm
  rintro contentType rfl
  have found : (some (bytes "content-type")).bind
      (abstract.insert .body (bytes "data") body).headerFields.searchDict =
      abstract.headerFields.searchDict (bytes "content-type") := rfl
  have lostEntry : (if some (bytes "content-type") = none ∨
      (abstract.insert .body (bytes "data") body).headerFields.keys = [] then 0 else 2) =
      if abstract.headerFields.keys = [] then 0 else 2 := by
    simp [HTTPRequest.insert]
  rw [found, lostEntry, add_comm, HTTPRequest.extractBody]
  generalize lost (if abstract.headerFields.keys = [] then 0 else 2) = entry
  cases abstract.headerFields.searchDict (bytes "content-type") with
  | none => exact Triple.pure refinesStored subset_rfl
  | some contentType =>
      dsimp only
      split_ifs with urlencoded
      · apply (Triple.malloc allocator).seq (zero_add _).symm
        intro bodyCopy _
        rw [add_left_comm]
        apply (foldlM_extractPair_spec allocator refinesStored (tokens isAmpersand body)).seq rfl
        intro filled refinesFilled
        apply (Triple.free bodyCopy).seq (add_left_comm _ _ _)
        intro _ _
        rw [zero_add]
        exact Triple.pure refinesFilled subset_rfl
      · exact Triple.pure refinesStored subset_rfl

/-- What the construction loses: the entry of the search for the content type. -/
def constructorLoss (requestString : Bytes) : ℕ :=
  if bodyPart requestString = [] ∨ (withoutBody requestString).headerFields.keys = [] then 0
  else 2

omit [DecidableEq Block] in
theorem extractUnlessEmpty_spec
    {extract : HeapRequest Block → Bytes → Program Block (HeapRequest Block)}
    {request : HeapRequest Block} {abstract further : HTTPRequest}
    (refines : request.Refines abstract) {part : Bytes}
    (extracts : Triple request.holding (extract request part)
      (fun after => after.Refines further) holding)
    (skips : part = [] → further = abstract) :
    Triple request.holding (extractUnlessEmpty extract request part)
      (fun after => after.Refines further) holding := by
  rw [extractUnlessEmpty]
  split_ifs with absent
  · rw [skips absent]
    exact Triple.pure refines subset_rfl
  · exact extracts

theorem requestLinePart_spec (requestString : Bytes) :
    Triple 0 (extractUnlessEmpty (extractRequestLineFields allocator) empty
        (requestLinePart requestString))
      (fun after => after.Refines
        (HTTPRequest.empty.extractRequestLineFields (requestLinePart requestString))) holding := by
  rw [← holding_empty]
  apply extractUnlessEmpty_spec refines_empty
  · exact extractRequestLineFields_spec allocator refines_empty _
  · intro absent
    rw [absent, extractRequestLineFields_nil]

theorem headersPart_spec (requestString : Bytes) {request : HeapRequest Block}
    (refines : request.Refines
      (HTTPRequest.empty.extractRequestLineFields (requestLinePart requestString))) :
    Triple request.holding (extractUnlessEmpty (extractHeaderFields allocator) request
        (headersPart requestString))
      (fun after => after.Refines (withoutBody requestString)) holding := by
  apply extractUnlessEmpty_spec refines
  · exact extractHeaderFields_spec allocator refines _
  · intro absent
    rw [withoutBody, absent, extractHeaderFields_nil]

theorem bodyPart_spec (requestString : Bytes) {request : HeapRequest Block}
    (refines : request.Refines (withoutBody requestString)) :
    Triple request.holding (extractUnlessEmpty (extractBody allocator) request
        (bodyPart requestString))
      (fun after => after.Refines (LetUsConnect.httpRequestConstructor requestString))
      (fun after => after.holding + lost (constructorLoss requestString)) := by
  rw [httpRequestConstructor_eq, constructorLoss, extractUnlessEmpty]
  by_cases absent : bodyPart requestString = []
  · rw [if_pos absent, if_pos absent, if_pos (.inl absent)]
    refine Triple.pure refines ?_
    rw [lost_zero, add_zero]
  · simp only [absent, if_false, false_or]
    exact extractBody_spec allocator refines (bodyPart requestString)

theorem httpRequestConstructor_spec (requestString : Bytes) :
    Triple 0 (httpRequestConstructor allocator requestString)
      (fun request => request.Refines (LetUsConnect.httpRequestConstructor requestString))
      (fun request => request.holding + lost (constructorLoss requestString)) := by
  rw [httpRequestConstructor]
  split_ifs with nil
  · subst nil
    refine Triple.pure refines_empty ?_
    rw [holding_empty, zero_add]
    exact subset_of_eq lost_zero.symm
  · apply (Triple.malloc allocator).bind
    intro requested _
    apply (requestLinePart_spec allocator requestString).seq (zero_add _).symm
    intro withLine refinesLine
    apply (headersPart_spec allocator requestString refinesLine).seq rfl
    intro withFields refinesFields
    apply (bodyPart_spec allocator requestString refinesFields).seq rfl
    intro withBody refinesBody
    apply (Triple.free requested).seq (add_comm _ _)
    intro _ _
    rw [zero_add]
    exact Triple.pure refinesBody subset_rfl

theorem httpRequestDestructor_spec {request : HeapRequest Block} {abstract : HTTPRequest}
    (refines : request.Refines abstract) :
    Triple request.holding request.httpRequestDestructor (fun _ => True)
      (fun _ => lost (abstract.requestLine.unreleased + abstract.headerFields.unreleased +
        abstract.body.unreleased)) := by
  apply (HeapDictionary.dictionaryDestructor_spec refines.requestLine).seq (add_assoc _ _ _)
  intro _ _
  apply (HeapDictionary.dictionaryDestructor_spec refines.headerFields).seq (add_left_comm _ _ _)
  intro _ _
  have parts : lost abstract.headerFields.unreleased +
      (lost abstract.requestLine.unreleased + request.body.holding) = request.body.holding +
      (lost abstract.requestLine.unreleased + lost abstract.headerFields.unreleased) := by
    rw [← add_assoc, add_comm (lost abstract.headerFields.unreleased), add_comm]
  apply (HeapDictionary.dictionaryDestructor_spec refines.body).last parts
  · exact fun _ _ => trivial
  · intro _ _
    rw [add_comm (lost _) (_ + _)]
    exact Holding.subset_lost_add (lost_add_subset _ _) subset_rfl

/-- What the searches lose: an entry for every key looked up in a dictionary with content. -/
def searchesLoss (abstract : HTTPRequest) : List RequestSearch → ℕ
  | [] => 0
  | search :: searches =>
      (if search.key = none ∨ (abstract.part search.part).keys = [] then 0 else 2) +
        searchesLoss abstract searches

theorem runSearches_spec {request : HeapRequest Block} {abstract : HTTPRequest}
    (refines : request.Refines abstract) (searches : List RequestSearch) :
    Triple 0 (request.runSearches allocator searches) (fun _ => True)
      (fun _ => lost (searchesLoss abstract searches)) := by
  induction searches with
  | nil =>
      rw [searchesLoss, lost_zero]
      exact Triple.pure trivial subset_rfl
  | cons search searches ih =>
      have searched := HeapDictionary.searchDict_spec allocator (refines.part search.part)
        search.key
      apply searched.bind
      intro _ _
      apply ih.last (zero_add _).symm
      · exact fun _ _ => trivial
      · intro _ _
        rw [add_comm, searchesLoss]
        exact lost_add_subset _ _

/-- How many blocks a request leaves behind. -/
def leftBehind (requestString : Bytes) (searches : List RequestSearch) : ℕ :=
  let request := LetUsConnect.httpRequestConstructor requestString
  constructorLoss requestString + searchesLoss request searches +
    (request.requestLine.unreleased + request.headerFields.unreleased + request.body.unreleased)

theorem requestLife_spec (requestString : Bytes) (searches : List RequestSearch) :
    Triple 0 (requestLife allocator requestString searches) (fun _ => True)
      (fun _ => lost (leftBehind requestString searches)) := by
  apply (httpRequestConstructor_spec allocator requestString).bind
  intro request refines
  apply (runSearches_spec allocator refines searches).seq (zero_add _).symm
  intro _ _
  apply (httpRequestDestructor_spec refines).last (add_left_comm _ _ _)
  · exact fun _ _ => trivial
  · intro _ _
    rw [add_comm, leftBehind, add_comm (constructorLoss requestString)]
    exact Holding.subset_lost_add (lost_add_subset _ _) subset_rfl

end Specifications

end HeapRequest

open HTTPRequest

/-! ## When nothing is left behind -/

/-- The parser inserts nothing into this dictionary. -/
def NoFields (requestString : Bytes) : RequestPart → Prop
  | .requestLine => tokens isBlank (requestLinePart requestString) = []
  | .headerFields => headerEntries (headersPart requestString) = []
  | .body => bodyPart requestString = []

/--
The requests whose blocks are all freed. The request line has at most one token
and the header section at most one field, there is not both a field and a body,
and no key is looked up in a dictionary with content.
-/
structure LeavesNothing (requestString : Bytes) (searches : List RequestSearch) : Prop where
  requestLine : (tokens isBlank (requestLinePart requestString)).length ≤ 1
  headerFields : (headerEntries (headersPart requestString)).length ≤ 1
  body : bodyPart requestString = [] ∨ headerEntries (headersPart requestString) = []
  searches : ∀ search ∈ searches, search.key = none ∨ NoFields requestString search.part

namespace HeapRequest

theorem keys_part_eq_nil_iff (requestString : Bytes) (part : RequestPart) :
    ((LetUsConnect.httpRequestConstructor requestString).part part).keys = [] ↔
      NoFields requestString part := by
  cases part with
  | requestLine =>
      rw [HTTPRequest.part, requestLine_httpRequestConstructor, ← List.length_eq_zero_iff,
        HTTPRequest.length_keys_extractRequestLineFields, NoFields, ← List.length_eq_zero_iff]
      omega
  | headerFields =>
      rw [HTTPRequest.part, keys_headerFields, List.map_eq_nil_iff]
      rfl
  | body => exact keys_body_eq_nil_iff requestString

theorem searchesLoss_eq_zero_iff (abstract : HTTPRequest) (searches : List RequestSearch) :
    searchesLoss abstract searches = 0 ↔
      ∀ search ∈ searches, search.key = none ∨ (abstract.part search.part).keys = [] := by
  induction searches with
  | nil => simp [searchesLoss]
  | cons search searches ih =>
      rw [searchesLoss, Nat.add_eq_zero_iff, ih, List.forall_mem_cons]
      apply and_congr_left'
      split_ifs with spared <;> simp [spared]

theorem constructorLoss_eq_zero_iff (requestString : Bytes) :
    constructorLoss requestString = 0 ↔
      bodyPart requestString = [] ∨ headerEntries (headersPart requestString) = [] := by
  rw [constructorLoss, ← headerFields_eq_withoutBody, keys_headerFields]
  simp [or_iff_not_imp_left]

theorem leftBehind_eq_zero_iff (requestString : Bytes) (searches : List RequestSearch) :
    leftBehind requestString searches = 0 ↔ LeavesNothing requestString searches := by
  have line : (LetUsConnect.httpRequestConstructor requestString).requestLine.keys.length ≤ 1 ↔
      (tokens isBlank (requestLinePart requestString)).length ≤ 1 := by
    rw [requestLine_httpRequestConstructor, HTTPRequest.length_keys_extractRequestLineFields]
    omega
  have fields : (LetUsConnect.httpRequestConstructor requestString).headerFields.keys.length ≤ 1 ↔
      (headerEntries (headersPart requestString)).length ≤ 1 := by
    rw [keys_headerFields, List.length_map]
  have searched := searchesLoss_eq_zero_iff
    (LetUsConnect.httpRequestConstructor requestString) searches
  simp only [keys_part_eq_nil_iff] at searched
  have constructed := constructorLoss_eq_zero_iff requestString
  rw [leftBehind]
  constructor
  · intro nothing
    have lineShort := (Dictionary.unreleased_eq_zero_iff
      (LetUsConnect.httpRequestConstructor requestString).requestLine).mp (by omega)
    have fieldsShort := (Dictionary.unreleased_eq_zero_iff
      (LetUsConnect.httpRequestConstructor requestString).headerFields).mp (by omega)
    exact ⟨line.mp lineShort, fields.mp fieldsShort, constructed.mp (by omega),
      searched.mp (by omega)⟩
  · rintro ⟨lineShort, fieldsShort, noBodyOrFields, unsearched⟩
    have bodyShort : (LetUsConnect.httpRequestConstructor requestString).body.keys.length ≤ 1 := by
      rcases noBodyOrFields with noBody | fieldless
      · rw [(keys_body_eq_nil_iff requestString).mpr noBody]
        exact Nat.zero_le 1
      · exact length_keys_body_le requestString fieldless
    rw [constructed.mpr noBodyOrFields, searched.mpr unsearched,
      (Dictionary.unreleased_eq_zero_iff _).mpr (line.mpr lineShort),
      (Dictionary.unreleased_eq_zero_iff _).mpr (fields.mpr fieldsShort),
      (Dictionary.unreleased_eq_zero_iff _).mpr bodyShort]

/--
The life of a request leaves the live blocks as they were exactly for the
requests of `LeavesNothing`.
-/
theorem requestLife_restores_iff {Block : Type} [DecidableEq Block] (allocator : Allocator Block)
    (requestString : Bytes) (searches : List RequestSearch) (live : Finset Block) :
    requestLife allocator requestString searches live = some (⟨⟩, live) ↔
      LeavesNothing requestString searches := by
  rw [← leftBehind_eq_zero_iff, ← (requestLife_spec allocator requestString searches).restores_iff
    live]
  constructor
  · exact fun restored => ⟨⟨⟩, restored⟩
  · rintro ⟨_, restored⟩
    exact restored

/-- A request line has three tokens, so its third key list node stays allocated. -/
theorem requestLife_get_loses :
    requestLife Allocator.counting (bytes "GET / HTTP/1.1\r\n\r\n") [] ∅ ≠ some (⟨⟩, ∅) := by
  intro restored
  have nothing := ((requestLife_spec Allocator.counting _ []).restores_iff ∅).mp ⟨⟨⟩, restored⟩
  have line := (leftBehind_eq_zero_iff _ []).mp nothing |>.requestLine
  exact absurd line (by decide)

end HeapRequest

end LetUsConnect
