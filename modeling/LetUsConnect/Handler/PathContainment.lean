import LetUsConnect.Handler
import LetUsConnect.Lib.LexicalPath

/-!
# Containment of the opened paths

The handler builds the path it opens by prefixing `public`, by appending
`/index.html` or `.html` and by cutting at 511 bytes, after one substring test on
the `uri`. The paths of all branches are described by the components of the `uri`,
and containment below `public` becomes a condition on these components.

The guard only knows `../`, so a `uri` that ends in `..` passes it.
-/

namespace LetUsConnect

open CString LexicalPath

/-- Whatever the operating system answers, every opened path is below `public`. -/
def PathContained (request : HTTPRequest) : Prop :=
  ∀ env path fileFd, Action.openFile path fileFd ∈ handleFilesystemRequest env request →
    Below (bytes "public") path

/--
The `uri` starts at the root, and neither its path nor the path with `.html`
ends in the parent of `public` after being cut to its buffer.
-/
def SafeUri (uri : Bytes) : Prop :=
  ∃ rest, uri = separator :: rest ∧ ¬ClimbsOut (components (rest.take 504)) ∧
    ¬ClimbsOut (components ((rest ++ bytes ".html").take 504))

theorem traverses_eq_false_iff {uri : Bytes} :
    traverses uri = false ↔ ¬bytes "../" <:+: uri := by
  rw [traverses, ← strstr_isSome_iff, Bool.not_eq_true]

/-! ## The paths of the branches -/

theorem requestedPath_cons (rest : Bytes) :
    requestedPath (separator :: rest) = bytes "public" ++ separator :: rest.take 504 := rfl

theorem htmlPath_requestedPath_cons (rest : Bytes) :
    htmlPath (requestedPath (separator :: rest)) =
      bytes "public" ++ separator :: (rest ++ bytes ".html").take 504 := by
  have six : (bytes "public").length = 6 := by decide
  have length : (requestedPath (separator :: rest)).length = 7 + min 504 rest.length := by
    rw [requestedPath_cons, List.length_append, List.length_cons, List.length_take, six]
    omega
  have room : pathSize - (7 + min 504 rest.length) - 1 = 504 - rest.length := by
    rw [pathSize]
    omega
  rw [htmlPath, strncat, length, room, requestedPath_cons, List.take_append, List.append_assoc,
    List.cons_append]

theorem length_requestedPath_le (uri : Bytes) : (requestedPath uri).length ≤ 511 := by
  rw [requestedPath, snprintf, List.length_take, pathSize]
  omega

theorem entry_take_index (length : ℕ) :
    separator ∉ (bytes "index.html").take length ∧
      (bytes "index.html").take length ≠ parent ∧
      (bytes "index.html").take length ≠ bytes "public" := by
  have cut : (bytes "index.html").take length = (bytes "index.html").take (min length 10) := by
    rw [List.take_eq_take_iff]
    simp [bytes]
  have bound : min length 10 < 11 := by omega
  rw [cut]
  generalize min length 10 = bounded at bound
  revert bounded
  decide

theorem below_indexPath_iff {path : Bytes} (fits : path.length ≤ 511) :
    Below (bytes "public") (indexPath path) ↔ Below (bytes "public") path := by
  rw [indexPath]
  split_ifs with slash
  · rcases List.getLast?_eq_some_iff.mp slash with ⟨directory, rfl⟩
    have entry := entry_take_index (pathSize - (directory ++ [ch '/']).length - 1)
    rw [strncat, List.append_assoc, List.singleton_append]
    exact (below_append_separator entry.1 entry.2.1 entry.2.2).trans
      (below_append_separator (by simp) (by decide) (by decide)).symm
  · by_cases full : path.length = 511
    · have unchanged : ∀ more, strncat pathSize path more = path := by
        intro more
        rw [strncat, full, pathSize]
        simp
      rw [unchanged, unchanged]
    · have withSlash : strncat pathSize path (bytes "/") = path ++ [separator] := by
        have room : pathSize - path.length - 1 = 510 - path.length + 1 := by
          rw [pathSize]
          omega
        rw [strncat, room]
        simp [bytes, separator]
      have entry := entry_take_index (pathSize - (path ++ [separator]).length - 1)
      rw [withSlash, strncat, List.append_assoc, List.singleton_append,
        below_append_separator entry.1 entry.2.1 entry.2.2]

theorem below_public_iff {rest : Bytes} (guarded : ¬bytes "../" <:+: rest) :
    Below (bytes "public") (bytes "public" ++ separator :: rest) ↔
      ¬ClimbsOut (components rest) := by
  have split : components (bytes "public" ++ separator :: rest) =
      bytes "public" :: components rest := by
    rw [components_append_separator, components_eq_singleton (by decide)]
    rfl
  have whole : ¬bytes "../" <:+: bytes "public" ++ separator :: rest := by
    simpa [bytes, ch, separator, List.infix_cons_iff] using guarded
  rw [below_iff split (by decide) whole]
  simp

theorem not_below_requestedPath {first : UInt8} {rest : Bytes} (noSlash : first ≠ separator)
    (guarded : ¬bytes "../" <:+: first :: rest) :
    ¬Below (bytes "public") (requestedPath (first :: rest)) := by
  have path : requestedPath (first :: rest) = bytes "public" ++ first :: rest.take 504 := rfl
  rcases splitOnP_eq_cons (· == separator) (requestedPath (first :: rest)) with ⟨others, split⟩
  have name : (requestedPath (first :: rest)).takeWhile (!(· == separator) ·) =
      bytes "public" ++ first :: (rest.take 504).takeWhile (!(· == separator) ·) := by
    rw [path]
    simp [bytes, ch, separator, List.takeWhile_cons] at noSlash ⊢
    simp [noSlash]
  have whole : ¬bytes "../" <:+: requestedPath (first :: rest) := by
    rw [path, ← List.take_succ_cons]
    intro occurs
    apply guarded
    have tail : bytes "../" <:+: (first :: rest).take 505 := by
      simpa [bytes, ch, List.infix_cons_iff] using occurs
    exact tail.trans (List.take_prefix _ _).isInfix
  have parts : components (requestedPath (first :: rest)) =
      (requestedPath (first :: rest)).takeWhile (!(· == separator) ·) :: others := by
    rw [components, List.splitOn_eq_splitOnP, split]
  rw [below_iff parts]
  · rw [name]
    simp
  · rw [name]
    simp [Proper, stays, current, parent, bytes, ch]
  · exact whole

/-! ## The opened paths -/

theorem resolvePath_eq_some {env : Environment} {uri path : Bytes} {status : FileStatus}
    (resolved : resolvePath env uri = some (path, status)) :
    path = requestedPath uri ∨ path = indexPath (requestedPath uri) ∨
      path = htmlPath (requestedPath uri) := by
  have again : ∀ localPath, checkAgain env localPath = some (path, status) →
      path = localPath := by
    intro localPath checked
    rw [checkAgain] at checked
    split at checked
    · simp at checked
    · split_ifs at checked
      exact (Prod.mk.inj (Option.some.inj checked)).1.symm
  rw [resolvePath] at resolved
  split at resolved
  · split_ifs at resolved
    · exact Or.inr (Or.inl (again _ resolved))
    · exact Or.inl (Prod.mk.inj (Option.some.inj resolved)).1.symm
  · exact Or.inr (Or.inr (again _ resolved))

/-- A `GET` or `HEAD` opens the path it resolves to and no other. -/
theorem openFile_mem_handleFile_iff {env : Environment} {request : HTTPRequest} {isGet : Bool}
    {uri path : Bytes} {fileFd : Option ℕ} :
    Action.openFile path fileFd ∈ handleFile env request isGet uri ↔
      fileFd = env.openFile path ∧ ∃ status, resolvePath env uri = some (path, status) := by
  rw [handleFile]
  split
  · next missing => simp [missing, refuse, sendError, sendResponseHead]
  · next localPath status resolved =>
      have rest : Action.openFile path fileFd ∉
          answerOpened env request isGet localPath status (env.openFile localPath) := by
        cases env.openFile localPath with
        | none => simp [answerOpened, refuse, sendError, sendResponseHead]
        | some => cases isGet <;> simp [answerOpened, serveFile, sendResponseHead]
      refine (List.mem_cons.trans (or_iff_left rest)).trans ?_
      rw [resolved]
      simp only [Action.openFile.injEq, Option.some.injEq, Prod.mk.injEq, exists_and_left,
        exists_eq', and_true]
      constructor
      · rintro ⟨rfl, rfl⟩
        exact ⟨rfl, rfl⟩
      · rintro ⟨rfl, rfl⟩
        exact ⟨rfl, rfl⟩

theorem openFile_mem_handlePost {env : Environment} {request : HTTPRequest} {uri path : Bytes}
    {fileFd : Option ℕ} (opened : Action.openFile path fileFd ∈ handlePost env request uri) :
    path = postDataPath := by
  rw [handlePost] at opened
  split at opened
  · simp [refuse, sendError, sendResponseHead] at opened
  · simp only [storeBody, sendCreated, sendResponseHead] at opened
    split at opened <;> simp at opened <;> exact opened.1

/-- An operating system under which every file exists and opens. -/
def everythingExists : Environment :=
  { idle with stat := fun _ _ => some ⟨false, 0⟩, openFile := fun _ => some 3 }

/-- An operating system that answers the first `stat` with -1 and the second with a file. -/
def onlySecondExists : Environment :=
  { everythingExists with stat := fun number _ => if number = 0 then none else some ⟨false, 0⟩ }

theorem pathContained_iff_of_asksForFile {request : HTTPRequest} {uri : Bytes}
    (asks : AsksForFile request uri) :
    PathContained request ↔ Below (bytes "public") (requestedPath uri) ∧
      Below (bytes "public") (htmlPath (requestedPath uri)) := by
  have opens : ∀ env path status, resolvePath env uri = some (path, status) →
      Action.openFile path (env.openFile path) ∈ handleFilesystemRequest env request := by
    intro env path status resolved
    rw [handleFilesystemRequest_of_asksForFile asks, openFile_mem_handleFile_iff]
    exact ⟨rfl, status, resolved⟩
  constructor
  · intro contained
    exact ⟨contained everythingExists _ _ (opens everythingExists _ _ rfl),
      contained onlySecondExists _ _ (opens onlySecondExists _ _ rfl)⟩
  · rintro ⟨first, html⟩ env path fileFd opened
    rw [handleFilesystemRequest_of_asksForFile asks, openFile_mem_handleFile_iff] at opened
    rcases opened with ⟨-, status, resolved⟩
    rcases resolvePath_eq_some resolved with rfl | rfl | rfl
    · exact first
    · exact (below_indexPath_iff (length_requestedPath_le uri)).mpr first
    · exact html

theorem pathContained_of_not_asksForFile {request : HTTPRequest}
    (asksNothing : ∀ uri, ¬AsksForFile request uri) : PathContained request := by
  intro env path fileFd opened
  by_cases stores : ∃ uri, StoresBody request uri
  · rcases stores with ⟨uri, stores⟩
    rw [handleFilesystemRequest_of_storesBody stores] at opened
    rw [openFile_mem_handlePost opened]
    decide
  · rcases handleFilesystemRequest_otherwise (not_exists.mp stores) asksNothing with
      ⟨code, -, refused⟩
    rw [refused] at opened
    simp [refuse, sendError, sendResponseHead] at opened

theorem infix_of_infix_append_html {rest : Bytes}
    (occurs : bytes "../" <:+: rest ++ bytes ".html") : bytes "../" <:+: rest := by
  rcases occurs with ⟨before, after, split⟩
  rcases List.append_eq_append_iff.mp split with ⟨gap, whole, -⟩ | ⟨gap, whole, ending⟩
  · exact ⟨before, gap, whole.symm⟩
  · rcases List.eq_nil_or_concat' gap with rfl | ⟨front, last, rfl⟩
    · exact ⟨before, [], by simpa using whole⟩
    · have isSlash : last = separator := by
        have ends := congrArg List.getLast? whole
        simpa [bytes, separator] using ends.symm
      have member : separator ∈ bytes ".html" := by
        rw [ending, isSlash]
        simp
      exact absurd member (by decide)

/-- The two paths are contained exactly when the `uri` is safe. -/
theorem below_iff_safeUri {uri : Bytes} (nonempty : uri ≠ []) (guarded : traverses uri = false) :
    (Below (bytes "public") (requestedPath uri) ∧
      Below (bytes "public") (htmlPath (requestedPath uri))) ↔ SafeUri uri := by
  rw [traverses_eq_false_iff] at guarded
  cases uri with
  | nil => exact absurd rfl nonempty
  | cons first rest =>
      by_cases slash : first = separator
      · subst slash
        have restGuarded : ¬bytes "../" <:+: rest :=
          fun occurs => guarded (occurs.trans (List.suffix_cons _ _).isInfix)
        have htmlGuarded : ¬bytes "../" <:+: rest ++ bytes ".html" :=
          fun occurs => restGuarded (infix_of_infix_append_html occurs)
        rw [htmlPath_requestedPath_cons, requestedPath_cons, below_public_iff, below_public_iff]
        · simp [SafeUri]
        · exact fun occurs => htmlGuarded (occurs.trans (List.take_prefix _ _).isInfix)
        · exact fun occurs => restGuarded (occurs.trans (List.take_prefix _ _).isInfix)
      · constructor
        · exact fun both => absurd both.1 (not_below_requestedPath slash guarded)
        · rintro ⟨others, starts, -⟩
          exact absurd (List.cons.inj starts).1 slash

/--
The opened paths stay below `public` exactly when the request does not ask for a
file or asks for it by a safe `uri`.
-/
theorem pathContained_iff (text : Bytes) :
    PathContained (httpRequestConstructor text) ↔
      ∀ uri, AsksForFile (httpRequestConstructor text) uri → SafeUri uri := by
  by_cases asks : ∃ uri, AsksForFile (httpRequestConstructor text) uri
  · rcases asks with ⟨uri, asks⟩
    have nonempty : uri ≠ [] := by
      have hasUri := asks.hasUri
      rw [uri_httpRequestConstructor] at hasUri
      exact (mem_tokens (List.mem_of_getElem? hasUri)).2.1
    rw [pathContained_iff_of_asksForFile asks, below_iff_safeUri nonempty asks.guarded]
    constructor
    · intro safe other otherAsks
      rwa [Option.some.inj (otherAsks.hasUri.symm.trans asks.hasUri)]
    · exact fun safe => safe uri asks
  · rw [not_exists] at asks
    exact iff_of_true (pathContained_of_not_asksForFile asks)
      fun uri asksUri => absurd asksUri (asks uri)

/-- The shortest `uri` that leaves `public`. -/
def climbingRequest : Bytes := bytes "GET /.. HTTP/1.1\r\n\r\n"

/-- An operating system in which the `uri` names a directory that holds an index. -/
def directoryWithIndex : Environment :=
  { everythingExists with stat := fun number _ => some ⟨number = 0, 0⟩ }

/-- The parent of `public` is a directory, and its index is served. -/
theorem climbingRequest_escapes :
    ¬∀ text : Bytes, PathContained (httpRequestConstructor text) := by
  intro contained
  have asks : AsksForFile (httpRequestConstructor climbingRequest) (bytes "/..") :=
    ⟨⟨by decide, by decide, by decide⟩, by decide⟩
  have opened : Action.openFile (bytes "public/../index.html") (some 3) ∈
      handleFilesystemRequest directoryWithIndex (httpRequestConstructor climbingRequest) := by
    rw [handleFilesystemRequest_of_asksForFile asks, openFile_mem_handleFile_iff]
    exact ⟨rfl, ⟨false, 0⟩, rfl⟩
  exact absurd (contained climbingRequest directoryWithIndex _ _ opened) (by decide)

end LetUsConnect
