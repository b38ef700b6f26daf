import LetUsConnect.Handler.Answers
import LetUsConnect.Handler.PathContainment

/-!
# The file a request is answered with

A `uri` stands for three names, and the handler tries one of them, which one
depending on what it finds under the first. Names are built in a buffer of 512
bytes, so what is looked up and opened are their first 511 bytes. A longer name
may therefore be answered with a file that it does not name.
-/

namespace LetUsConnect

open CString LexicalPath

/-! ## The names of a `uri` -/

def exactName (uri : Bytes) : Bytes := bytes "public" ++ uri

/-- The index of the directory that the `uri` names. -/
def indexName (uri : Bytes) : Bytes :=
  exactName uri ++
    (if uri.getLast? = some separator then bytes "index.html" else bytes "/index.html")

def htmlName (uri : Bytes) : Bytes := exactName uri ++ bytes ".html"

def namesOf (uri : Bytes) : List Bytes := [exactName uri, indexName uri, htmlName uri]

/-- The part of a name that fits into `local_path`. -/
def cut (name : Bytes) : Bytes := snprintf pathSize name

/-- Every `stat` of the run is answered from one state of the file system. -/
def Environment.Shows (env : Environment) (files : Bytes → Option FileStatus) : Prop :=
  ∀ number path, env.stat number path = files path

/-- The path names something that exists and is not a directory. -/
def IsFile (files : Bytes → Option FileStatus) (path : Bytes) : Prop :=
  ∃ status, files path = some status ∧ status.isDirectory = false

/-- The name that the handler looks for in the end. -/
def lookedFor (files : Bytes → Option FileStatus) (uri : Bytes) : Bytes :=
  match files (cut (exactName uri)) with
  | none => htmlName uri
  | some status => if status.isDirectory then indexName uri else exactName uri

/-- The only head among the actions has that status. -/
def AnsweredWith (statusCode : ℕ) (actions : List Action) : Prop :=
  (actions.filterMap Action.head).map headStatus = [digits statusCode]

/--
A file is sent only under one of the three names, and 404 is the answer when
none of them names a file.
-/
structure ServesNamedFile (env : Environment) (files : Bytes → Option FileStatus)
    (request : HTTPRequest) (uri : Bytes) : Prop where
  named : AnsweredWith 200 (handleFilesystemRequest env request) →
    ∀ path fileFd, Action.openFile path fileFd ∈ handleFilesystemRequest env request →
      path ∈ namesOf uri
  missing : (∀ name ∈ namesOf uri, ¬IsFile files name) →
    AnsweredWith 404 (handleFilesystemRequest env request)

/-! ## Cut names -/

theorem cut_eq_self {name : Bytes} (fits : name.length ≤ 511) : cut name = name :=
  List.take_of_length_le fits

theorem length_cut {name : Bytes} (long : 511 < name.length) : (cut name).length = 511 := by
  rw [cut, snprintf, List.length_take, pathSize]
  omega

theorem strncat_cut (text more : Bytes) : strncat pathSize (cut text) more = cut (text ++ more) :=
  strncat_snprintf pathSize text more

theorem cut_append_of_full {text : Bytes} (full : 511 ≤ text.length) (more : Bytes) :
    cut (text ++ more) = cut text :=
  List.take_append_of_le_length full

theorem requestedPath_eq (uri : Bytes) : requestedPath uri = cut (exactName uri) := rfl

theorem htmlPath_eq (uri : Bytes) : htmlPath (requestedPath uri) = cut (htmlName uri) :=
  strncat_cut _ _

theorem getLast?_exactName (uri : Bytes) :
    (exactName uri).getLast? = some separator ↔ uri.getLast? = some separator := by
  rw [exactName, List.getLast?_append]
  cases last : uri.getLast? with
  | none => simp [bytes, ch, separator]
  | some byte => simp

theorem indexPath_eq (uri : Bytes) : indexPath (requestedPath uri) = cut (indexName uri) := by
  have withSlash : strncat pathSize (strncat pathSize (cut (exactName uri)) (bytes "/"))
      (bytes "index.html") = cut (exactName uri ++ bytes "/index.html") := by
    rw [strncat_cut, strncat_cut, List.append_assoc]
    rfl
  rw [indexPath, requestedPath_eq]
  by_cases full : 511 ≤ (exactName uri).length
  · rw [indexName, cut_append_of_full full]
    split_ifs
    · rw [strncat_cut, cut_append_of_full full]
    · rw [withSlash, cut_append_of_full full]
  · have sameLast : (cut (exactName uri)).getLast? = some (ch '/') ↔
        uri.getLast? = some separator := by
      rw [cut_eq_self (by omega)]
      exact getLast?_exactName uri
    simp only [sameLast, indexName]
    split_ifs
    · exact strncat_cut _ _
    · exact withSlash

/-! ## What the handler finds -/

section Resolution

variable {env : Environment} {files : Bytes → Option FileStatus} {uri : Bytes}

/-- The handler resolves a `uri` to the cut name it looks for, if that names a file. -/
theorem resolvePath_eq_some_iff (shows : env.Shows files) {path : Bytes} {status : FileStatus} :
    resolvePath env uri = some (path, status) ↔
      path = cut (lookedFor files uri) ∧ files path = some status ∧
        status.isDirectory = false := by
  have again : ∀ localPath, checkAgain env localPath = some (path, status) ↔
      path = localPath ∧ files path = some status ∧ status.isDirectory = false := by
    intro localPath
    rw [checkAgain, shows]
    cases found : files localPath with
    | none =>
        refine iff_of_false (by simp) ?_
        rintro ⟨rfl, impossible, -⟩
        simp [found] at impossible
    | some other =>
        dsimp only
        split_ifs with isDirectory
        · refine iff_of_false (by simp) ?_
          rintro ⟨rfl, same, plain⟩
          rw [found, Option.some.injEq] at same
          simp [same, plain] at isDirectory
        · rw [Option.some.injEq, Prod.mk.injEq]
          constructor
          · rintro ⟨rfl, rfl⟩
            exact ⟨rfl, found, by simpa using isDirectory⟩
          · rintro ⟨rfl, same, -⟩
            exact ⟨rfl, Option.some.inj (found.symm.trans same)⟩
  rw [resolvePath, shows, requestedPath_eq, lookedFor]
  cases first : files (cut (exactName uri)) with
  | none => exact (again _).trans (by rw [← requestedPath_eq, htmlPath_eq])
  | some other =>
      dsimp only
      split_ifs with isDirectory
      · exact (again _).trans (by rw [← requestedPath_eq, indexPath_eq])
      · rw [Option.some.injEq, Prod.mk.injEq]
        constructor
        · rintro ⟨rfl, rfl⟩
          exact ⟨rfl, first, by simpa using isDirectory⟩
        · rintro ⟨rfl, same, -⟩
          exact ⟨rfl, Option.some.inj (first.symm.trans same)⟩

end Resolution

/-! ## Which file is sent -/

theorem cut_ne_of_long {name other : Bytes} (long : 511 < name.length)
    (otherLong : 511 < other.length) : cut name ≠ other := by
  intro same
  have length := length_cut long
  rw [same] at length
  omega

/-- A cut name still shows how what was appended to it begins. -/
theorem cut_append_ne {text more other : Bytes} (short : text.length < 511)
    (differ : more.head? ≠ other.head?) : cut (text ++ more) ≠ text ++ other := by
  rw [cut, snprintf, List.take_append, List.take_of_length_le (by rw [pathSize]; omega), Ne,
    List.append_cancel_left_eq]
  intro same
  have head := congrArg List.head? same
  rw [List.head?_take, if_neg (by rw [pathSize]; omega)] at head
  exact differ head

section Names

variable {files : Bytes → Option FileStatus} {uri : Bytes}

theorem cut_lookedFor_notMem (long : 511 < (lookedFor files uri).length)
    (isFile : IsFile files (cut (lookedFor files uri))) :
    cut (lookedFor files uri) ∉ namesOf uri := by
  rcases isFile with ⟨status, found, plain⟩
  rw [lookedFor] at long found ⊢
  have indexHead : (if uri.getLast? = some separator then bytes "index.html"
      else bytes "/index.html").head? ∉ [none, some (ch '.')] := by
    split_ifs <;> decide
  simp only [List.mem_cons, List.not_mem_nil, or_false, not_or] at indexHead
  cases first : files (cut (exactName uri)) with
  | none =>
      simp only [first] at long found ⊢
      have short : (exactName uri).length < 511 := by
        by_contra full
        rw [htmlName, cut_append_of_full (by omega), first] at found
        cases found
      have notExact := @cut_append_ne (exactName uri) (bytes ".html") [] short (by decide)
      rw [List.append_nil] at notExact
      simp only [namesOf, List.mem_cons, List.not_mem_nil, or_false, not_or]
      refine ⟨notExact, ?_, cut_ne_of_long long long⟩
      exact cut_append_ne short fun same => indexHead.2 same.symm
  | some other =>
      simp only [first] at long found ⊢
      split_ifs at long found ⊢ with isDirectory
      · have short : (exactName uri).length < 511 := by
          by_contra full
          rw [indexName, cut_append_of_full (by omega), first, Option.some.injEq] at found
          rw [found, plain] at isDirectory
          cases isDirectory
        have notExact := @cut_append_ne (exactName uri) _ [] short indexHead.1
        rw [List.append_nil] at notExact
        simp only [namesOf, List.mem_cons, List.not_mem_nil, or_false, not_or]
        exact ⟨notExact, cut_ne_of_long long long, cut_append_ne short indexHead.2⟩
      · have longer : ∀ more, 511 < (exactName uri ++ more).length := by
          intro more
          rw [List.length_append]
          omega
        simp only [namesOf, List.mem_cons, List.not_mem_nil, or_false, not_or]
        exact ⟨cut_ne_of_long long long, cut_ne_of_long long (longer _),
          cut_ne_of_long long (longer _)⟩

theorem lookedFor_mem : lookedFor files uri ∈ namesOf uri := by
  rw [lookedFor]
  split
  · simp [namesOf]
  · split_ifs <;> simp [namesOf]

theorem cut_lookedFor_mem_iff (isFile : IsFile files (cut (lookedFor files uri))) :
    cut (lookedFor files uri) ∈ namesOf uri ↔ (lookedFor files uri).length ≤ 511 := by
  constructor
  · intro member
    by_contra long
    exact cut_lookedFor_notMem (by omega) isFile member
  · intro fits
    rw [cut_eq_self fits]
    exact lookedFor_mem

end Names

/-! ## The answers -/

section Answered

variable {env : Environment} {request : HTTPRequest} {uri : Bytes}

theorem AnswersOnce.answeredWith_iff {actions : List Action} {statusCode other : ℕ} {head : Bytes}
    (answers : AnswersOnce actions statusCode head) :
    AnsweredWith other actions ↔ statusCode = other := by
  rw [AnsweredWith, answers.heads, List.map_singleton, answers.status, List.singleton_inj,
    digits_injective.eq_iff]

theorem servesNamedFile_of_unresolved {files : Bytes → Option FileStatus}
    (asks : AsksForFile request uri) (unresolved : resolvePath env uri = none) :
    ServesNamedFile env files request uri := by
  have handled : handleFilesystemRequest env request = refuse env request 404 := by
    rw [handleFilesystemRequest_of_asksForFile asks, handleFile, unresolved]
  have answers : AnswersOnce (handleFilesystemRequest env request) 404 (errorHead 404) := by
    rw [handled]
    exact answers_refuse (by decide)
  constructor
  · intro ok
    exact absurd (answers.answeredWith_iff.mp ok) (by decide)
  · exact fun _ => answers.answeredWith_iff.mpr rfl

theorem servesNamedFile_iff_of_refused {files : Bytes → Option FileStatus}
    (asks : AsksForFile request uri) {path : Bytes} {status : FileStatus}
    (resolved : resolvePath env uri = some (path, status)) (refused : env.openFile path = none) :
    ServesNamedFile env files request uri ↔ ∃ name ∈ namesOf uri, IsFile files name := by
  have answers : AnswersOnce (handleFilesystemRequest env request) 403 (errorHead 403) := by
    rw [handleFilesystemRequest_of_asksForFile asks, handleFile, resolved]
    dsimp only
    rw [refused]
    exact (answers_refuse (by decide)).openFile _ _
  constructor
  · intro serves
    by_contra nothing
    push Not at nothing
    exact absurd (answers.answeredWith_iff.mp (serves.missing nothing)) (by decide)
  · rintro ⟨name, member, isFile⟩
    exact ⟨fun ok => absurd (answers.answeredWith_iff.mp ok) (by decide),
      fun nothing => absurd isFile (nothing name member)⟩

theorem servesNamedFile_iff_of_opened {files : Bytes → Option FileStatus}
    (asks : AsksForFile request uri) {path : Bytes} {status : FileStatus} {fileFd : ℕ}
    (resolved : resolvePath env uri = some (path, status))
    (opened : env.openFile path = some fileFd) (isFile : IsFile files path) :
    ServesNamedFile env files request uri ↔ path ∈ namesOf uri := by
  have answers : AnswersOnce (handleFilesystemRequest env request) 200
      (fileHead path status.size (keepAlive request)) := by
    rw [handleFilesystemRequest_of_asksForFile asks, handleFile, resolved]
    dsimp only
    rw [opened]
    exact (answers_serveFile _ _ _ _).openFile _ _
  have opens : ∀ other otherFd,
      Action.openFile other otherFd ∈ handleFilesystemRequest env request ↔
        otherFd = env.openFile other ∧ other = path := by
    intro other otherFd
    rw [handleFilesystemRequest_of_asksForFile asks, openFile_mem_handleFile_iff, resolved]
    simp [eq_comm]
  constructor
  · intro serves
    exact serves.named (answers.answeredWith_iff.mpr rfl) path _ ((opens path _).mpr ⟨rfl, rfl⟩)
  · intro named
    refine ⟨fun _ other otherFd member => ?_, fun nothing => absurd isFile (nothing path named)⟩
    rw [((opens other otherFd).mp member).2]
    exact named

end Answered

/--
A file is sent under its name, and 404 is the answer to a missing one, exactly
when the name that is looked for fits into its buffer, or what is found under its
beginning is no file, or cannot be opened while one of the names is a file.
-/
theorem servesNamedFile_iff {env : Environment} {files : Bytes → Option FileStatus}
    {request : HTTPRequest} {uri : Bytes} (asks : AsksForFile request uri)
    (shows : env.Shows files) :
    ServesNamedFile env files request uri ↔
      (lookedFor files uri).length ≤ 511 ∨ ¬IsFile files (cut (lookedFor files uri)) ∨
        env.openFile (cut (lookedFor files uri)) = none ∧
          ∃ name ∈ namesOf uri, IsFile files name := by
  by_cases isFile : IsFile files (cut (lookedFor files uri))
  · rcases isFile with ⟨status, found, plain⟩
    have resolved := (resolvePath_eq_some_iff shows).mpr
      ⟨rfl, found, plain⟩
    have isFile : IsFile files (cut (lookedFor files uri)) := ⟨status, found, plain⟩
    cases opened : env.openFile (cut (lookedFor files uri)) with
    | none =>
        rw [servesNamedFile_iff_of_refused asks resolved opened]
        constructor
        · exact fun named => Or.inr (Or.inr ⟨rfl, named⟩)
        · rintro (fits | noFile | ⟨-, named⟩)
          · exact ⟨_, (cut_lookedFor_mem_iff isFile).mpr fits, isFile⟩
          · exact absurd isFile noFile
          · exact named
    | some fileFd =>
        rw [servesNamedFile_iff_of_opened asks resolved opened isFile,
          cut_lookedFor_mem_iff isFile]
        simp [isFile]
  · have unresolved : resolvePath env uri = none := by
      rw [Option.eq_none_iff_forall_ne_some]
      rintro ⟨path, status⟩ resolved
      rcases (resolvePath_eq_some_iff shows).mp resolved with ⟨rfl, found, plain⟩
      exact isFile ⟨status, found, plain⟩
    exact iff_of_true (servesNamedFile_of_unresolved asks unresolved) (Or.inr (Or.inl isFile))

theorem pageRequest_servesNamedFile :
    ServesNamedFile (filesOfSize 5) (fun _ => some ⟨false, 5⟩) pageRequest (bytes "/a") ↔
      (lookedFor (fun _ => some ⟨false, 5⟩) (bytes "/a")).length ≤ 511 ∨
        ¬IsFile (fun _ => some ⟨false, 5⟩)
          (cut (lookedFor (fun _ => some ⟨false, 5⟩) (bytes "/a"))) ∨
        (filesOfSize 5).openFile (cut (lookedFor (fun _ => some ⟨false, 5⟩) (bytes "/a"))) = none ∧
          ∃ name ∈ namesOf (bytes "/a"), IsFile (fun _ => some ⟨false, 5⟩) name :=
  servesNamedFile_iff pageRequest_asks fun _ _ => rfl

/-! ## A name that is cut -/

/-- The `uri` of a file in a directory, both with names of 252 bytes. -/
def longUri : Bytes :=
  (separator :: List.replicate 252 (ch 'a')) ++ (separator :: List.replicate 252 (ch 'a'))

def longRequest : HTTPRequest :=
  httpRequestConstructor (bytes "GET " ++ longUri ++ bytes " HTTP/1.1\r\n\r\n")

/-- A file system in which only the name without its last byte exists. -/
def shorterNameOnly (path : Bytes) : Option FileStatus :=
  if path = cut (exactName longUri) then some ⟨false, 5⟩ else none

def shorterNameEnvironment : Environment :=
  { idle with stat := fun _ => shorterNameOnly, openFile := fun _ => some 3 }

theorem longRequest_asks : AsksForFile longRequest longUri :=
  ⟨⟨by decide +kernel, by decide +kernel, by decide +kernel⟩, by decide +kernel⟩

/-- The file with the shorter name is sent. -/
theorem longRequest_misserved :
    ¬∀ (env : Environment) (files : Bytes → Option FileStatus) (request : HTTPRequest)
        (uri : Bytes), AsksForFile request uri → env.Shows files →
        ServesNamedFile env files request uri := by
  intro always
  have serves := always shorterNameEnvironment shorterNameOnly longRequest longUri
    longRequest_asks fun _ _ => rfl
  have first : shorterNameOnly (cut (exactName longUri)) = some ⟨false, 5⟩ := if_pos rfl
  have name : lookedFor shorterNameOnly longUri = exactName longUri := by
    rw [lookedFor, first]
    rfl
  have isFile : IsFile shorterNameOnly (cut (lookedFor shorterNameOnly longUri)) :=
    ⟨_, by rw [name]; exact first, rfl⟩
  have resolved : resolvePath shorterNameEnvironment longUri =
      some (cut (lookedFor shorterNameOnly longUri), ⟨false, 5⟩) :=
    (resolvePath_eq_some_iff fun _ _ => rfl).mpr ⟨rfl, by rw [name]; exact first, rfl⟩
  have named := (servesNamedFile_iff_of_opened longRequest_asks resolved rfl isFile).mp serves
  have short := (cut_lookedFor_mem_iff isFile).mp named
  have length : (exactName longUri).length = 512 := by
    have six : (bytes "public").length = 6 := by decide
    rw [exactName, longUri]
    simp only [List.length_append, List.length_cons, List.length_replicate, six]
  rw [name, length] at short
  omega

end LetUsConnect
