import LetUsConnect.Handler.AccessLog
import LetUsConnect.Handler.Answers

/-!
# Reading the access log

A reader of the log cuts it into lines, takes a line apart field by field and skips
what is no record. A request whose first two words hold a line feed spoils its own
line, but whatever it sends it cannot write another one: the pieces of its line are
no records either.
-/

namespace LetUsConnect

open CString

/-! ## The reader -/

/-- What a line of the access log says. -/
structure LogRecord where
  clientIp : Bytes
  timestamp : Bytes
  method : Bytes
  path : Bytes
  statusCode : ℕ
  host : Bytes
  deriving DecidableEq

/-- The rest of a text that begins with a word. -/
def afterWord (word text : Bytes) : Option Bytes :=
  if word.isPrefixOf text then some (text.drop word.length) else none

/-- The rest of a text that ends with a word. -/
def beforeWord (word text : Bytes) : Option Bytes :=
  if word.isSuffixOf text then some (text.take (text.length - word.length)) else none

namespace LogRecord

/-- The fields of a line from the quoted request on. -/
def readRequest (clientIp timestamp line : Bytes) : Option LogRecord := do
  let (method, line) ← strchr line (ch ' ')
  let (quoted, line) ← strchr line (ch ' ')
  let path ← beforeWord (bytes "\"") quoted
  let (status, line) ← strchr line (ch ' ')
  let line ← afterWord (bytes "(Host: ") line
  let host ← beforeWord (bytes ")") line
  if status.all isdigit then
    return { clientIp, timestamp, method, path, statusCode := decimalValue status, host }
  else none

def readLine (line : Bytes) : Option LogRecord := do
  let (clientIp, line) ← strchr line (ch ' ')
  let line ← afterWord (bytes "- - [") line
  let (timestamp, line) ← strchr line (ch ']')
  let line ← afterWord (bytes " \"") line
  readRequest clientIp timestamp line

/-- The records in a text; other lines are skipped. -/
def readLog (text : Bytes) : List LogRecord := (text.splitOn (ch '\n')).filterMap readLine

variable (record : LogRecord)

/-- The line of a record, with the end of it in place of the request, the status and the host. -/
def lineHead (rest : Bytes) : Bytes :=
  record.clientIp ++ ch ' ' :: (bytes "- - [" ++ (record.timestamp ++ ch ']' ::
    (bytes " \"" ++ rest)))

/-- What follows the path in the line of a record. -/
def lineTail : Bytes :=
  bytes "\"" ++ ch ' ' :: (digits record.statusCode ++ ch ' ' ::
    (bytes "(Host: " ++ (record.host ++ bytes ")")))

/-- The line of a record. -/
def line : Bytes :=
  record.lineHead (record.method ++ ch ' ' :: (record.path ++ record.lineTail))

/-- What is true of the fields that the handler logs. -/
structure Loggable : Prop where
  clientIp : ch ' ' ∉ record.clientIp ∧ ch '\n' ∉ record.clientIp
  timestamp : ch ']' ∉ record.timestamp ∧ ch '\n' ∉ record.timestamp
  method : ch ' ' ∉ record.method
  path : ch ' ' ∉ record.path
  host : ch '\n' ∉ record.host

end LogRecord

/-! ## Reading a line -/

theorem afterWord_append (word text : Bytes) : afterWord word (word ++ text) = some text := by
  rw [afterWord, if_pos (List.isPrefixOf_iff_prefix.mpr (List.prefix_append _ _)),
    List.drop_left]

theorem beforeWord_append (text word : Bytes) : beforeWord word (text ++ word) = some text := by
  have length_eq : (text ++ word).length - word.length = text.length := by simp
  rw [beforeWord, if_pos (List.isSuffixOf_iff_suffix.mpr (List.suffix_append _ _)), length_eq,
    List.take_left]

theorem strchr_of_notMem {text : Bytes} {byte : UInt8} (absent : byte ∉ text) :
    strchr text byte = none := by
  cases cut : strchr text byte with
  | none => rfl
  | some parts =>
      rw [(eq_append_of_strchr cut).1] at absent
      simp at absent

theorem afterWord_eq_none {word text : Bytes} (differs : ¬word <+: text) :
    afterWord word text = none :=
  if_neg fun isPrefix => differs (List.isPrefixOf_iff_prefix.mp isPrefix)

namespace LogRecord

variable {record : LogRecord}

theorem blank_notMem_digits (value : ℕ) : ch ' ' ∉ digits value := by
  intro member
  exact absurd (isdigit_of_mem_digits member) (by decide)

/-- The reader comes to the request of a line. -/
theorem Loggable.readLine_lineHead (loggable : record.Loggable) (rest : Bytes) :
    readLine (record.lineHead rest) = readRequest record.clientIp record.timestamp rest := by
  rw [readLine, lineHead, strchr_append loggable.clientIp.1]
  simp only [Option.bind_eq_bind, Option.bind_some, afterWord_append,
    strchr_append loggable.timestamp.1]

/-- A request and what follows it are read. -/
theorem Loggable.readRequest_eq (loggable : record.Loggable) :
    readRequest record.clientIp record.timestamp
      (record.method ++ ch ' ' :: (record.path ++ record.lineTail)) = some record := by
  have quote : ch ' ' ∉ bytes "\"" := by decide
  have quoted : ch ' ' ∉ record.path ++ bytes "\"" := by simp [loggable.path, quote]
  have isNumber : (digits record.statusCode).all isdigit = true :=
    List.all_eq_true.mpr fun byte => isdigit_of_mem_digits
  rw [readRequest, strchr_append loggable.method, lineTail]
  simp only [Option.bind_eq_bind, Option.bind_some]
  rw [← List.append_assoc, strchr_append quoted]
  simp only [Option.bind_some, beforeWord_append, strchr_append (blank_notMem_digits _),
    afterWord_append, isNumber, if_true, decimalValue_digits]
  rfl

/-- The line of a record is read. -/
theorem Loggable.readLine_line (loggable : record.Loggable) :
    readLine record.line = some record := by
  rw [line, loggable.readLine_lineHead, loggable.readRequest_eq]

/-! ## Pieces of a line -/

/-- A text without a blank is no record. -/
theorem readLine_of_noBlank {text : Bytes} (noBlank : ch ' ' ∉ text) : readLine text = none := by
  rw [readLine, strchr_of_notMem noBlank]
  rfl

/-- Behind its first blank a record has a hyphen and another blank. -/
theorem readLine_of_noHyphen {front rest : Bytes} (noBlank : ch ' ' ∉ front)
    (differs : ¬bytes "- - [" <+: rest) : readLine (front ++ ch ' ' :: rest) = none := by
  rw [readLine, strchr_append noBlank]
  simp only [Option.bind_eq_bind, Option.bind_some, afterWord_eq_none differs, Option.bind_none]

/-- A request that is cut off in the method or in the path is no record. -/
theorem readRequest_of_cut {clientIp timestamp : Bytes} {method : Bytes}
    (noBlank : ch ' ' ∉ method) :
    readRequest clientIp timestamp method = none ∧
      ∀ path, ch ' ' ∉ path →
        readRequest clientIp timestamp (method ++ ch ' ' :: path) = none := by
  constructor
  · rw [readRequest, strchr_of_notMem noBlank]
    rfl
  · intro path notInPath
    rw [readRequest, strchr_append noBlank]
    simp only [Option.bind_eq_bind, Option.bind_some, strchr_of_notMem notInPath, Option.bind_none]

theorem exists_of_hyphens {text : Bytes} (isPrefix : bytes "- - [" <+: text) :
    ∃ rest, text = ch '-' :: ch ' ' :: rest := by
  rcases isPrefix with ⟨rest, rfl⟩
  exact ⟨_, rfl⟩

theorem noHyphens_of_noBlank {text : Bytes} (noBlank : ch ' ' ∉ text) :
    ¬bytes "- - [" <+: text := by
  intro isPrefix
  rcases exists_of_hyphens isPrefix with ⟨rest, rfl⟩
  simp at noBlank

/-- A quote comes too early for the blank. -/
theorem noHyphens_of_quote {path : Bytes} (noBlank : ch ' ' ∉ path) (rest : Bytes) :
    ¬bytes "- - [" <+: path ++ (bytes "\"" ++ rest) := by
  intro isPrefix
  rcases exists_of_hyphens isPrefix with ⟨other, same⟩
  rcases path with _ | ⟨first, _ | ⟨second, path⟩⟩
  · exact absurd (List.cons.inj same).1 (by decide)
  · exact absurd (List.cons.inj (List.cons.inj same).2).1 (by decide)
  · have isBlank := (List.cons.inj (List.cons.inj same).2).1
    simp [isBlank] at noBlank

theorem noHyphens_digits (value : ℕ) (rest : Bytes) :
    ¬bytes "- - [" <+: digits value ++ ch ' ' :: rest := by
  intro isPrefix
  rcases exists_of_hyphens isPrefix with ⟨other, same⟩
  have firstByte := congrArg List.head? same
  cases isDigits : digits value with
  | nil =>
      rw [isDigits] at firstByte
      exact absurd firstByte (by simp [ch])
  | cons digit others =>
      rw [isDigits] at firstByte
      have isHyphen : digit = ch '-' := Option.some.inj firstByte
      have isDigit := @isdigit_of_mem_digits value digit (by simp [isDigits])
      rw [isHyphen] at isDigit
      exact absurd isDigit (by decide)

/-! ## Texts of several lines -/

theorem readLog_append_feed (front rest : Bytes) :
    readLog (front ++ ch '\n' :: rest) = readLog front ++ readLog rest := by
  rw [readLog, List.splitOn_append_cons_self, List.filterMap_append]
  rfl

theorem readLog_of_noFeed {text : Bytes} (noFeed : ch '\n' ∉ text) :
    readLog text = (readLine text).toList := by
  rw [readLog, List.splitOn_eq_singleton noFeed]
  cases read : readLine text <;> simp [read]

theorem Loggable.notMem_lineTail (loggable : record.Loggable) : ch '\n' ∉ record.lineTail := by
  have fixed : ch '\n' ∉ bytes "\"" ∧ ch '\n' ∉ bytes "(Host: " ∧ ch '\n' ∉ bytes ")" ∧
      ch '\n' ≠ ch ' ' := by decide
  have number : ch '\n' ∉ digits record.statusCode := by
    rw [← decimal_natCast]
    exact feed_notMem_decimal _
  simp [lineTail, fixed, number, loggable.host]

theorem Loggable.notMem_lineFrom (loggable : record.Loggable) {method path : Bytes}
    (noFeed : ch '\n' ∉ method) (noFeedInPath : ch '\n' ∉ path) :
    ch '\n' ∉ method ++ ch ' ' :: (path ++ record.lineTail) := by
  have fixed : ch '\n' ≠ ch ' ' := by decide
  simp [noFeed, noFeedInPath, fixed, loggable.notMem_lineTail]

theorem Loggable.notMem_lineHead (loggable : record.Loggable) {rest : Bytes}
    (noFeed : ch '\n' ∉ rest) : ch '\n' ∉ record.lineHead rest := by
  have fixed : ch '\n' ∉ bytes "- - [" ∧ ch '\n' ∉ bytes " \"" ∧ ch '\n' ≠ ch ' ' ∧
      ch '\n' ≠ ch ']' := by decide
  simp [lineHead, noFeed, fixed, loggable.clientIp, loggable.timestamp]

theorem lineHead_append (record : LogRecord) (front rest : Bytes) :
    record.lineHead (front ++ rest) = record.lineHead front ++ rest := by
  simp [lineHead]

/-- The rest of a line from inside its path on holds no record. -/
theorem Loggable.readLog_path (loggable : record.Loggable) {path : Bytes}
    (noBlank : ch ' ' ∉ path) : readLog (path ++ record.lineTail) = [] := by
  induction path using line_induction with
  | last path noFeed =>
      have quote : ch ' ' ∉ bytes "\"" := by decide
      have front : ch ' ' ∉ path ++ bytes "\"" := by simp [noBlank, quote]
      have oneLine : ch '\n' ∉ path ++ record.lineTail := by
        simp [noFeed, loggable.notMem_lineTail]
      rw [readLog_of_noFeed oneLine, lineTail, ← List.append_assoc,
        readLine_of_noHyphen front (noHyphens_digits _ _)]
      rfl
  | more piece path noFeed ih =>
      simp only [List.mem_append, List.mem_cons, not_or] at noBlank
      rw [List.append_assoc, List.cons_append, readLog_append_feed, ih noBlank.2.2,
        readLog_of_noFeed noFeed, readLine_of_noBlank noBlank.1]
      rfl

/-- The rest of a line from inside its method on holds no record. -/
theorem Loggable.readLog_method (loggable : record.Loggable) {method path : Bytes}
    (noBlank : ch ' ' ∉ method) (noBlankInPath : ch ' ' ∉ path) :
    readLog (method ++ ch ' ' :: (path ++ record.lineTail)) = [] := by
  have fixed : ch '\n' ≠ ch ' ' := by decide
  induction method using line_induction with
  | last method noFeed =>
      by_cases feed : ch '\n' ∈ path
      · rcases List.eq_append_cons_of_mem feed with ⟨front, rest, rfl, noFeedInFront⟩
        simp only [List.mem_append, List.mem_cons, not_or] at noBlankInPath
        have oneLine : ch '\n' ∉ method ++ ch ' ' :: front := by
          simp [noFeed, noFeedInFront, fixed]
        have split : method ++ ch ' ' :: (front ++ ch '\n' :: rest ++ record.lineTail) =
            (method ++ ch ' ' :: front) ++ ch '\n' :: (rest ++ record.lineTail) := by simp
        rw [split, readLog_append_feed, loggable.readLog_path noBlankInPath.2.2,
          readLog_of_noFeed oneLine,
          readLine_of_noHyphen noBlank (noHyphens_of_noBlank noBlankInPath.1)]
        rfl
      · rw [readLog_of_noFeed (loggable.notMem_lineFrom noFeed feed), lineTail,
          readLine_of_noHyphen noBlank (noHyphens_of_quote noBlankInPath _)]
        rfl
  | more piece method noFeed ih =>
      simp only [List.mem_append, List.mem_cons, not_or] at noBlank
      rw [List.append_assoc, List.cons_append, readLog_append_feed, ih noBlank.2.2,
        readLog_of_noFeed noFeed, readLine_of_noBlank noBlank.1]
      rfl

/-- The record is read from its line unless the method or the path breaks it; no other is. -/
theorem Loggable.readLog_line (loggable : record.Loggable) :
    readLog record.line =
      if ch '\n' ∉ record.method ∧ ch '\n' ∉ record.path then [record] else [] := by
  split_ifs with whole
  · rw [line, readLog_of_noFeed
      (loggable.notMem_lineHead (loggable.notMem_lineFrom whole.1 whole.2)), ← line,
      loggable.readLine_line]
    rfl
  · by_cases inMethod : ch '\n' ∈ record.method
    · rcases List.eq_append_cons_of_mem inMethod with ⟨front, rest, split, noFeed⟩
      have noBlank := loggable.method
      rw [split] at noBlank
      simp only [List.mem_append, List.mem_cons, not_or] at noBlank
      rw [line, split, List.append_assoc, List.cons_append, lineHead_append, readLog_append_feed,
        readLog_of_noFeed (loggable.notMem_lineHead noFeed), loggable.readLine_lineHead,
        (readRequest_of_cut noBlank.1).1, loggable.readLog_method noBlank.2.2 loggable.path]
      rfl
    · have inPath : ch '\n' ∈ record.path := by
        by_contra notInPath
        exact whole ⟨inMethod, notInPath⟩
      rcases List.eq_append_cons_of_mem inPath with ⟨front, rest, split, noFeed⟩
      have noBlank := loggable.path
      rw [split] at noBlank
      simp only [List.mem_append, List.mem_cons, not_or] at noBlank
      have oneLine : ch '\n' ∉ record.method ++ ch ' ' :: front := by
        have fixed : ch '\n' ≠ ch ' ' := by decide
        simp [inMethod, noFeed, fixed]
      have cut : record.method ++ ch ' ' :: (record.path ++ record.lineTail) =
          (record.method ++ ch ' ' :: front) ++ ch '\n' :: (rest ++ record.lineTail) := by
        simp [split]
      rw [line, cut, lineHead_append, readLog_append_feed,
        readLog_of_noFeed (loggable.notMem_lineHead oneLine), loggable.readLine_lineHead,
        (readRequest_of_cut loggable.method).2 front noBlank.1,
        loggable.readLog_path noBlank.2.2]
      rfl

theorem readLog_unlines (lines : List Bytes) : readLog (unlines lines) = lines.flatMap readLog := by
  induction lines with
  | nil => rfl
  | cons line lines ih =>
      rw [unlines_cons, readLog_append_feed, ih, List.flatMap_cons]

end LogRecord

/-! ## The records of the handler -/

/-- What a request is logged as. -/
def Handling.record (handling : Handling) : LogRecord where
  clientIp := getClientIp handling.env
  timestamp := formatTimestamp handling.tm
  method := handling.request.method.getD (bytes "-")
  path := handling.request.uri.getD (bytes "-")
  statusCode := handling.statusCode
  host := (handling.request.header "host").getD (bytes "-")

theorem blank_notMem_token {text : Bytes} (index : ℕ) :
    ch ' ' ∉ ((tokens isBlank text)[index]?).getD (bytes "-") := by
  cases found : (tokens isBlank text)[index]? with
  | none => decide
  | some token =>
      intro blank
      have isToken := List.mem_of_getElem? found
      exact absurd ((mem_tokens isToken).2.2 _ blank) (by decide)

theorem Handling.loggable_record (handling : Handling) : handling.record.Loggable where
  clientIp := by
    refine ⟨?_, handling.feed_notMem_clientIp⟩
    change ch ' ' ∉ getClientIp handling.env
    rw [getClientIp]
    cases address : handling.env.peerAddress with
    | none => decide
    | some address_ =>
        rcases handling.isAddress address_ address with ⟨first, second, third, fourth, rfl⟩
        exact notMem_inetNtop (by decide) (by decide) first second third fourth
  timestamp := ⟨notMem_formatTimestamp (by decide) (by decide) (by decide) (by decide) _,
    notMem_formatTimestamp (by decide) (by decide) (by decide) (by decide) _⟩
  method := by
    change ch ' ' ∉ handling.request.method.getD _
    rw [Handling.request, method_httpRequestConstructor]
    exact blank_notMem_token 0
  path := by
    change ch ' ' ∉ handling.request.uri.getD _
    rw [Handling.request, uri_httpRequestConstructor]
    exact blank_notMem_token 1
  host := handling.feed_notMem_host

/-- The line breaks exactly if a line feed strayed into it. -/
theorem Handling.feed_notMem_record_iff (handling : Handling) :
    (ch '\n' ∉ handling.record.method ∧ ch '\n' ∉ handling.record.path) ↔ handling.Clean := by
  rw [Handling.clean_iff, ← Handling.count_feeds, Nat.add_eq_zero_iff, List.count_eq_zero,
    List.count_eq_zero]
  rfl

/-- What is logged is the line of the record. -/
theorem Handling.log_record {logger : Logger} {filepath : Bytes} (handling : Handling)
    (opened : logger.logStream = some (.file filepath)) (taken : LogStream → Bytes) :
    handling.log logger taken = Function.update taken (.file filepath)
      (taken (.file filepath) ++ unlines [handling.record.line]) := by
  have isLine : Logger.logLine (getClientIp handling.env) (formatTimestamp handling.tm)
      (handling.request.method.getD (bytes "-")) (handling.request.uri.getD (bytes "-"))
      handling.statusCode ((handling.request.header "host").getD (bytes "-")) =
        unlines [handling.record.line] := by
    rw [Logger.logLine, decimal_natCast, unlines_cons]
    simp [LogRecord.line, LogRecord.lineHead, LogRecord.lineTail, Handling.record, bytes]
  rw [handling.log_of_file opened, isLine]

theorem logAll_record {logger : Logger} {filepath : Bytes}
    (opened : logger.logStream = some (.file filepath)) (handlings : List Handling)
    (taken : LogStream → Bytes) :
    logAll logger handlings taken (.file filepath) =
      taken (.file filepath) ++ unlines (handlings.map fun handling => handling.record.line) := by
  induction handlings generalizing taken with
  | nil => exact (List.append_nil _).symm
  | cons handling handlings ih =>
      change logAll logger handlings (handling.log logger taken) _ = _
      rw [ih, handling.log_record opened, Function.update_self]
      simp

/--
Whoever reads the log finds, after the records that were there, one record for each
request without a line feed in the first two words of its request line, in order,
and no others: no request can write a record that is not its own.
-/
theorem readLog_logAll {logger : Logger} {filepath : Bytes}
    (opened : logger.logStream = some (.file filepath)) (handlings : List Handling)
    (taken : LogStream → Bytes) {earlier : List Bytes}
    (whole : taken (.file filepath) = unlines earlier) :
    LogRecord.readLog (logAll logger handlings taken (.file filepath)) =
      LogRecord.readLog (taken (.file filepath)) ++
        (handlings.filter fun handling => handling.strayFeeds = 0).map Handling.record := by
  rw [logAll_record opened, whole, ← unlines_append, LogRecord.readLog_unlines,
    List.flatMap_append, ← LogRecord.readLog_unlines]
  congr 1
  induction handlings with
  | nil => rfl
  | cons handling handlings ih =>
      rw [List.map_cons, List.flatMap_cons, ih, handling.loggable_record.readLog_line]
      simp only [handling.feed_notMem_record_iff, Handling.clean_iff]
      by_cases clean : handling.strayFeeds = 0 <;> simp [clean]

/-- A request with a forged line after it, and an honest one. -/
theorem forgedRecord_skipped :
    ∃ forged honest, forged.strayFeeds = 1 ∧
      LogRecord.readLog (logAll serverLog [forged, honest] (fun _ => [])
          (.file (bytes "server.log"))) = [honest.record] := by
  have opened : serverLog.logStream = some (.file (bytes "server.log")) := rfl
  refine ⟨handlingOf (bytes "GET /a\n1.2.3.4 HTTP/1.1\r\n\r\n"),
    handlingOf (bytes "GET / HTTP/1.1\r\n\r\n"), by decide, ?_⟩
  have whole : (fun _ => [] : LogStream → Bytes) (.file (bytes "server.log")) = unlines [] := rfl
  rw [readLog_logAll opened _ _ whole]
  rfl

end LetUsConnect
