import LetUsConnect.Handler
import LetUsConnect.Logger

/-!
# The access log

Every path of the handler ends in one call of the logger. The line it prints
holds the first two tokens of the request line, which are cut at blanks only.
-/

namespace LetUsConnect

open CString

/-! ## The log call of a request -/

/-- The calls of `logger_log_request` among the actions, each with its arguments. -/
def Action.logged : Action → Option (Bytes × Option Bytes × Option Bytes × ℕ × Option Bytes)
  | .logRequest clientIp method uri statusCode host =>
      some (clientIp, method, uri, statusCode, host)
  | _ => none

section Calls

variable {env : Environment} {request : HTTPRequest} {uri : Bytes}

/-- The arguments of the only call. -/
def LogsOnce (env : Environment) (request : HTTPRequest) (actions : List Action) : Prop :=
  ∃ statusCode, actions.filterMap Action.logged =
    [(getClientIp env, request.method, request.uri, statusCode, request.header "host")]

theorem logsOnce_refuse (code : ℕ) : LogsOnce env request (refuse env request code) :=
  ⟨code, rfl⟩

theorem logsOnce_handlePost (declared : (request.header "content-length").isSome) :
    LogsOnce env request (handlePost env request uri) := by
  rcases Option.isSome_iff_exists.mp declared with ⟨value, found⟩
  refine ⟨201, ?_⟩
  simp only [handlePost, found, storeBody]
  cases env.openFile postDataPath with
  | none => rfl
  | some fileFd => rfl

theorem logsOnce_handleFile (isGet : Bool) :
    LogsOnce env request (handleFile env request isGet uri) := by
  rw [handleFile]
  cases resolvePath env uri with
  | none => exact logsOnce_refuse 404
  | some found =>
      simp only
      cases env.openFile found.1 with
      | none => exact logsOnce_refuse 403
      | some fileFd =>
          refine ⟨200, ?_⟩
          cases isGet with
          | false => rfl
          | true => rfl

theorem logsOnce_handleFilesystemRequest (env : Environment) (request : HTTPRequest) :
    LogsOnce env request (handleFilesystemRequest env request) := by
  rcases handleFilesystemRequest_cases env request with
    ⟨uri, stores, handled⟩ | ⟨uri, asks, handled⟩ | ⟨code, used, handled⟩
  · rw [handled]
    exact logsOnce_handlePost stores.declared
  · rw [handled]
    exact logsOnce_handleFile _
  · rw [handled]
    exact logsOnce_refuse code

end Calls

/-! ## The log of a list of requests -/

/-- A request that is handled at a local time, for a peer with an IPv4 address. -/
structure Handling where
  env : Environment
  requestString : Bytes
  tm : Tm
  isAddress : ∀ address ∈ env.peerAddress, ∃ first second third fourth,
    address = inetNtop first second third fourth

/-- What an action prints to the streams of the logger. -/
def Action.log (logger : Logger) (tm : Tm) (taken : LogStream → Bytes) :
    Action → LogStream → Bytes
  | .logRequest clientIp method uri statusCode host =>
      logger.loggerLogRequest tm (some clientIp) method uri statusCode host taken
  | _ => taken

namespace Handling

variable (handling : Handling)

def request : HTTPRequest := httpRequestConstructor handling.requestString

/-- The streams after the handler. -/
def log (logger : Logger) (taken : LogStream → Bytes) : LogStream → Bytes :=
  (handleFilesystemRequest handling.env handling.request).foldl
    (Action.log logger handling.tm) taken

/-- There is no line feed in the first two tokens of the request line. -/
def Clean : Prop :=
  ∀ token ∈ (tokens isBlank (requestLinePart handling.requestString)).take 2, ch '\n' ∉ token

/-- The status code that is logged. -/
def statusCode : ℕ :=
  (((handleFilesystemRequest handling.env handling.request).filterMap Action.logged).head?.map
    fun call => call.2.2.2.1).getD 0

/-- The line feeds in the first two tokens of the request line. -/
def strayFeeds : ℕ :=
  (((tokens isBlank (requestLinePart handling.requestString)).take 2).map
    (List.count (ch '\n'))).sum

theorem clean_iff : handling.Clean ↔ handling.strayFeeds = 0 := by
  simp only [Clean, strayFeeds, List.sum_eq_zero_iff_forall_eq_nat, List.forall_mem_map,
    List.count_eq_zero]

/-- The line feeds of the texts that are logged for the first two tokens. -/
theorem count_feeds : (handling.request.method.getD (bytes "-")).count (ch '\n') +
    (handling.request.uri.getD (bytes "-")).count (ch '\n') = handling.strayFeeds := by
  have hyphen : (bytes "-").count (ch '\n') = 0 := by decide
  rw [request, method_httpRequestConstructor, uri_httpRequestConstructor, strayFeeds]
  rcases tokens isBlank (requestLinePart handling.requestString) with
    _ | ⟨method, _ | ⟨uri, rest⟩⟩
  · simp [hyphen]
  · simp [hyphen]
  · simp

theorem feed_notMem_clientIp : ch '\n' ∉ getClientIp handling.env := by
  rw [getClientIp]
  cases address : handling.env.peerAddress with
  | none => decide
  | some address_ =>
      rcases handling.isAddress address_ address with ⟨first, second, third, fourth, rfl⟩
      exact notMem_inetNtop (by decide) (by decide) first second third fourth

end Handling

theorem foldl_log_eq (logger : Logger) (tm : Tm) (actions : List Action)
    (taken : LogStream → Bytes) :
    actions.foldl (Action.log logger tm) taken =
      (actions.filterMap Action.logged).foldl
        (fun taken call => logger.loggerLogRequest tm (some call.1) call.2.1 call.2.2.1
          call.2.2.2.1 call.2.2.2.2 taken) taken := by
  induction actions generalizing taken with
  | nil => rfl
  | cons action actions ih =>
      rw [List.foldl_cons, ih]
      cases action <;> rfl

/-- A header value is cut out of a line. -/
theorem feed_notMem_header {text value : Bytes} {name : String}
    (found : (httpRequestConstructor text).header name = some value) : ch '\n' ∉ value := by
  rw [header_httpRequestConstructor, Option.map_eq_some_iff] at found
  rcases found with ⟨entry, isEntry, rfl⟩
  rcases List.mem_filterMap.mp (List.mem_of_find?_eq_some isEntry) with ⟨line, isToken, isEntry⟩
  intro feed
  have inLine : ch '\n' ∈ line := by
    rw [HTTPRequest.headerEntry] at isEntry
    cases cut : strchr line (ch ':') with
    | none => simp [cut] at isEntry
    | some parts =>
        rw [(eq_append_of_strchr cut).1]
        simp only [cut, Option.ite_none_left_eq_some, Option.some.injEq] at isEntry
        rw [← isEntry.2] at feed
        exact List.mem_append_right _ (List.mem_cons_of_mem _ (mem_of_mem_trim feed))
  exact absurd ((mem_tokens isToken).2.2 _ inLine) (by decide)

section File

variable {logger : Logger} {filepath : Bytes}

theorem Handling.feed_notMem_host (handling : Handling) :
    ch '\n' ∉ (handling.request.header "host").getD (bytes "-") := by
  cases found : handling.request.header "host" with
  | none => decide
  | some host => exact feed_notMem_header found

/-- A request prints the fields of the one call it makes. -/
theorem Handling.log_of_file (handling : Handling)
    (opened : logger.logStream = some (.file filepath)) (taken : LogStream → Bytes) :
    handling.log logger taken = Function.update taken (.file filepath) (taken (.file filepath) ++
      Logger.logLine (getClientIp handling.env) (formatTimestamp handling.tm)
        (handling.request.method.getD (bytes "-")) (handling.request.uri.getD (bytes "-"))
        handling.statusCode ((handling.request.header "host").getD (bytes "-"))) := by
  rcases logsOnce_handleFilesystemRequest handling.env handling.request with ⟨statusCode, calls⟩
  have isLogged : handling.statusCode = statusCode := by
    rw [Handling.statusCode, calls]
    rfl
  rw [Handling.log, foldl_log_eq, calls, List.foldl_cons, List.foldl_nil,
    Logger.loggerLogRequest_of_file opened, isLogged]
  rfl

/-- A request prints a text and a line feed. -/
theorem Handling.log_eq (handling : Handling)
    (opened : logger.logStream = some (.file filepath)) (taken : LogStream → Bytes) :
    ∃ line, handling.log logger taken =
        Function.update taken (.file filepath) (taken (.file filepath) ++ unlines [line]) ∧
      line.count (ch '\n') = handling.strayFeeds := by
  have timeClear : ch '\n' ∉ formatTimestamp handling.tm :=
    notMem_formatTimestamp (by decide) (by decide) (by decide) (by decide) _
  rcases logLine_eq (handling.request.method.getD (bytes "-"))
    (handling.request.uri.getD (bytes "-")) handling.statusCode handling.feed_notMem_clientIp
    timeClear handling.feed_notMem_host with ⟨line, isLine, count⟩
  refine ⟨line, ?_, count.trans handling.count_feeds⟩
  rw [handling.log_of_file opened, isLine, unlines_cons]
  rfl

/-- The streams after a list of requests, in the order in which they take the mutex. -/
def logAll (logger : Logger) (handlings : List Handling) (taken : LogStream → Bytes) :
    LogStream → Bytes :=
  handlings.foldl (fun taken handling => handling.log logger taken) taken

/-- A list of requests prints a text and a line feed for each. -/
theorem logAll_eq (opened : logger.logStream = some (.file filepath)) (handlings : List Handling)
    (taken : LogStream → Bytes) :
    ∃ lines, logAll logger handlings taken =
        Function.update taken (.file filepath) (taken (.file filepath) ++ unlines lines) ∧
      lines.map (List.count (ch '\n')) = handlings.map Handling.strayFeeds := by
  induction handlings generalizing taken with
  | nil =>
      refine ⟨[], ?_, rfl⟩
      rw [unlines_nil, List.append_nil, Function.update_eq_self]
      rfl
  | cons handling handlings ih =>
      rcases handling.log_eq opened taken with ⟨line, printed, count⟩
      rcases ih (handling.log logger taken) with ⟨lines, rest, counts⟩
      refine ⟨line :: lines, ?_, by simp [count, counts]⟩
      rw [logAll, List.foldl_cons]
      change logAll logger handlings (handling.log logger taken) = _
      rw [rest, printed]
      simp

/--
The log grows by one line for each request, in order, exactly when no request
has a line feed in the first two tokens of its request line.
-/
theorem one_line_per_request_iff (opened : logger.logStream = some (.file filepath))
    (handlings : List Handling) (taken : LogStream → Bytes) :
    (∃ lines, lines.length = handlings.length ∧ (∀ line ∈ lines, ch '\n' ∉ line) ∧
        logAll logger handlings taken (.file filepath) =
          taken (.file filepath) ++ unlines lines) ↔
      ∀ handling ∈ handlings, handling.Clean := by
  rcases logAll_eq opened handlings taken with ⟨printed, after, counts⟩
  have sameLength : printed.length = handlings.length := by
    simpa using congrArg List.length counts
  have stray : (printed.map (List.count (ch '\n'))).sum = 0 ↔
      ∀ handling ∈ handlings, handling.Clean := by
    rw [counts, List.sum_eq_zero_iff_forall_eq_nat]
    simp [Handling.clean_iff]
  rw [← stray, after, Function.update_self]
  constructor
  · rintro ⟨lines, count, clear, same⟩
    have sameFeeds := congrArg (List.count (ch '\n')) (List.append_cancel_left same)
    have noFeeds : (lines.map (List.count (ch '\n'))).sum = 0 := by
      simpa [List.sum_eq_zero_iff_forall_eq_nat, List.count_eq_zero] using clear
    rw [count_unlines, count_unlines] at sameFeeds
    omega
  · intro clean
    refine ⟨printed, sameLength, fun line isLine => ?_, rfl⟩
    rw [← List.count_eq_zero]
    rw [List.sum_eq_zero_iff_forall_eq_nat] at clean
    exact clean _ (List.mem_map_of_mem isLine)

end File

/-- A request handled at the documented time, when nothing is found. -/
def handlingOf (requestString : Bytes) : Handling where
  env := idle
  requestString := requestString
  tm := documentedTime
  isAddress := by simp [idle]

/-- The logger of the server. -/
def serverLog : Logger := (Logger.initial.loggerInit (some (bytes "server.log")) true).2

theorem homePage_logged :
    ∃ lines, lines.length = 1 ∧ (∀ line ∈ lines, ch '\n' ∉ line) ∧
      logAll serverLog [handlingOf (bytes "GET / HTTP/1.1\r\n\r\n")] (fun _ => [])
        (.file (bytes "server.log")) = [] ++ unlines lines := by
  have opened : serverLog.logStream = some (.file (bytes "server.log")) := rfl
  have clean : ∀ handling ∈ [handlingOf (bytes "GET / HTTP/1.1\r\n\r\n")], handling.Clean := by
    intro handling member
    rw [List.mem_singleton.mp member, Handling.clean_iff]
    decide
  exact (one_line_per_request_iff opened _ _).mpr clean

/-- A line feed in the `uri` starts a line that the request wrote. -/
theorem forgedLine_logged :
    ¬∀ (logger : Logger) (filepath : Bytes) (handling : Handling) (taken : LogStream → Bytes),
        logger.logStream = some (.file filepath) →
        ∃ line, ch '\n' ∉ line ∧
          handling.log logger taken (.file filepath) =
            taken (.file filepath) ++ unlines [line] := by
  intro oneLine
  have opened : serverLog.logStream = some (.file (bytes "server.log")) := rfl
  rcases oneLine serverLog _ (handlingOf (bytes "GET /a\nforged HTTP/1.1\r\n\r\n")) (fun _ => [])
    opened with ⟨line, clear, same⟩
  rcases (handlingOf (bytes "GET /a\nforged HTTP/1.1\r\n\r\n")).log_eq opened (fun _ => []) with
    ⟨printed, log, count⟩
  rw [log, Function.update_self] at same
  have feeds := congrArg (List.count (ch '\n')) (List.append_cancel_left same)
  have forged : (handlingOf (bytes "GET /a\nforged HTTP/1.1\r\n\r\n")).strayFeeds = 1 := by decide
  rw [← List.count_eq_zero] at clear
  simp [clear, count, forged] at feeds

end LetUsConnect
