import LetUsConnect.Lib.CString
import Mathlib.Logic.Function.Basic

/-!
# The logger

`src/logger/logger.c`. The functions run under one mutex, so that their calls
are a sequence. A stream takes everything that is printed to it; the texts of
`strftime` and `inet_ntop` are those of the "C" locale.
-/

namespace LetUsConnect

open CString

/-! ## Texts of the C library -/

/-- The fields of `struct tm` that are printed, in the ranges of `localtime_r`. -/
structure Tm where
  sec : Fin 61
  min : Fin 60
  hour : Fin 24
  mday : Fin 32
  mon : Fin 12
  /-- `tm_year`, the years since 1900. -/
  year : ℤ
  yearIsInt : -2 ^ 31 ≤ year ∧ year < 2 ^ 31
  /-- `tm_gmtoff`, in seconds. -/
  gmtoff : ℤ
  belowHundredHours : gmtoff.natAbs < 100 * 3600

/-- A number below 100 with two digits. -/
def twoDigits (value : ℕ) : Bytes :=
  [UInt8.ofNat (48 + value / 10), UInt8.ofNat (48 + value % 10)]

/-- `%b`. -/
def monthName (mon : Fin 12) : Bytes :=
  ([bytes "Jan", bytes "Feb", bytes "Mar", bytes "Apr", bytes "May", bytes "Jun", bytes "Jul",
    bytes "Aug", bytes "Sep", bytes "Oct", bytes "Nov", bytes "Dec"] : List Bytes).getD mon []

/-- `%z`. -/
def zone (gmtoff : ℤ) : Bytes :=
  (if gmtoff < 0 then bytes "-" else bytes "+") ++
    twoDigits (gmtoff.natAbs / 3600) ++ twoDigits (gmtoff.natAbs / 60 % 60)

/-- The text of `strftime` for `"%d/%b/%Y:%H:%M:%S %z"`. -/
def formatTimestamp (tm : Tm) : Bytes :=
  twoDigits tm.mday ++ bytes "/" ++ monthName tm.mon ++ bytes "/" ++ decimal (tm.year + 1900) ++
    bytes ":" ++ twoDigits tm.hour ++ bytes ":" ++ twoDigits tm.min ++ bytes ":" ++
    twoDigits tm.sec ++ bytes " " ++ zone tm.gmtoff

/-- The time in the comments of the logger. -/
def documentedTime : Tm where
  sec := 11
  min := 15
  hour := 20
  mday := 19
  mon := 4
  year := 126
  yearIsInt := by decide
  gmtoff := 7200
  belowHundredHours := by decide

example : formatTimestamp documentedTime = bytes "19/May/2026:20:15:11 +0200" := by decide

/-- `inet_ntop(AF_INET, ...)`. -/
def inetNtop (first second third fourth : UInt8) : Bytes :=
  decimal first.toNat ++ bytes "." ++ decimal second.toNat ++ bytes "." ++
    decimal third.toNat ++ bytes "." ++ decimal fourth.toNat

/-! ## The functions of the logger -/

/-- Where the log goes. -/
inductive LogStream where
  | stdout
  | file (filepath : Bytes)
deriving DecidableEq

/-- `log_stream` and `logger_initialized`, which are set together. -/
structure Logger where
  logStream : Option LogStream
  loggerInitialized : Bool
  together : loggerInitialized = logStream.isSome

namespace Logger

/-- The static initial values. -/
def initial : Logger := ⟨none, false, rfl⟩

/-- `logger_init`; `opens` is the success of `fopen`. -/
def loggerInit (logger : Logger) (filepath : Option Bytes) (opens : Bool) : ℤ × Logger :=
  if logger.loggerInitialized then (0, logger)
  else
    match filepath with
    | none => (0, ⟨some .stdout, true, rfl⟩)
    | some filepath =>
        if opens then (0, ⟨some (.file filepath), true, rfl⟩) else (-1, ⟨none, false, rfl⟩)

/-- `logger_destroy`. -/
def loggerDestroy (logger : Logger) : Logger :=
  if logger.loggerInitialized then ⟨none, false, rfl⟩ else logger

/-- What `fprintf` prints for a request. -/
def logLine (clientIp timestamp method path : Bytes) (statusCode : ℤ) (host : Bytes) : Bytes :=
  clientIp ++ bytes " - - [" ++ timestamp ++ bytes "] \"" ++ method ++ bytes " " ++ path ++
    bytes "\" " ++ decimal statusCode ++ bytes " (Host: " ++ host ++ bytes ")\n"

/-- `logger_log_request` at the local time `tm`, with what the streams have taken so far. -/
def loggerLogRequest (logger : Logger) (tm : Tm) (clientIp method path : Option Bytes)
    (statusCode : ℤ) (host : Option Bytes) (taken : LogStream → Bytes) : LogStream → Bytes :=
  match logger.logStream with
  | none => taken
  | some stream =>
      if !logger.loggerInitialized then taken
      else Function.update taken stream (taken stream ++
        logLine (clientIp.getD (bytes "-")) (formatTimestamp tm) (method.getD (bytes "-"))
          (path.getD (bytes "-")) statusCode (host.getD (bytes "-")))

variable {logger : Logger} {filepath : Bytes}

theorem loggerLogRequest_of_file (opened : logger.logStream = some (.file filepath)) (tm : Tm)
    (clientIp method path : Option Bytes) (statusCode : ℤ) (host : Option Bytes)
    (taken : LogStream → Bytes) :
    logger.loggerLogRequest tm clientIp method path statusCode host taken =
      Function.update taken (.file filepath) (taken (.file filepath) ++
        logLine (clientIp.getD (bytes "-")) (formatTimestamp tm) (method.getD (bytes "-"))
          (path.getD (bytes "-")) statusCode (host.getD (bytes "-"))) := by
  have initialized := logger.together
  rw [opened, Option.isSome_some] at initialized
  simp only [loggerLogRequest, opened, initialized, Bool.not_true, Bool.false_eq_true, if_false]

end Logger

/-! ## Bytes that a log line does not hold -/

theorem notMem_decimal {byte : UInt8} (notDigit : isdigit byte = false) (notSign : byte ≠ ch '-')
    (value : ℤ) : byte ∉ decimal value := by
  intro member
  rcases isdigit_or_eq_of_mem_decimal member with isDigit | isSign
  · rw [notDigit] at isDigit
    cases isDigit
  · exact notSign isSign

theorem notMem_twoDigits {byte : UInt8} (notDigit : isdigit byte = false) {value : ℕ}
    (small : value < 100) : byte ∉ twoDigits value := by
  have checked : ∀ value < 100, ∀ byte ∈ twoDigits value, isdigit byte := by decide +kernel
  intro member
  rw [checked value small byte member] at notDigit
  cases notDigit

theorem notMem_inetNtop {byte : UInt8} (notDigit : isdigit byte = false)
    (notSign : byte ∉ bytes "-.") (first second third fourth : UInt8) :
    byte ∉ inetNtop first second third fourth := by
  have number : ∀ value : ℤ, byte ∉ decimal value := by
    refine notMem_decimal notDigit ?_
    rintro rfl
    exact notSign (by decide)
  have dot : byte ∉ bytes "." := fun member => notSign (List.mem_cons_of_mem _ member)
  simp [inetNtop, number, dot]

theorem notMem_zone {byte : UInt8} (notDigit : isdigit byte = false)
    (notSign : byte ∉ bytes "-" ∧ byte ∉ bytes "+") {gmtoff : ℤ}
    (belowHundredHours : gmtoff.natAbs < 100 * 3600) : byte ∉ zone gmtoff := by
  have sign : byte ∉ (if gmtoff < 0 then bytes "-" else bytes "+") := by
    split_ifs
    · exact notSign.1
    · exact notSign.2
  have hours : byte ∉ twoDigits (gmtoff.natAbs / 3600) := notMem_twoDigits notDigit (by omega)
  have minutes : byte ∉ twoDigits (gmtoff.natAbs / 60 % 60) :=
    notMem_twoDigits notDigit (by omega)
  simp only [zone, List.mem_append, not_or]
  exact ⟨⟨sign, hours⟩, minutes⟩

theorem notMem_formatTimestamp {byte : UInt8} (notDigit : isdigit byte = false)
    (notSign : byte ∉ bytes "-" ∧ byte ∉ bytes "+")
    (fixed : byte ∉ bytes "/" ∧ byte ∉ bytes ":" ∧ byte ∉ bytes " ")
    (month : ∀ mon, byte ∉ monthName mon) (tm : Tm) : byte ∉ formatTimestamp tm := by
  have day : byte ∉ twoDigits tm.mday := notMem_twoDigits notDigit (by omega)
  have hour : byte ∉ twoDigits tm.hour := notMem_twoDigits notDigit (by omega)
  have min : byte ∉ twoDigits tm.min := notMem_twoDigits notDigit (by omega)
  have sec : byte ∉ twoDigits tm.sec := notMem_twoDigits notDigit (by omega)
  have offset := notMem_zone notDigit notSign tm.belowHundredHours
  have year : byte ∉ decimal (tm.year + 1900) := by
    refine notMem_decimal notDigit ?_ _
    rintro rfl
    exact notSign.1 (by decide)
  simp [formatTimestamp, month, fixed, day, hour, min, sec, offset, year]

theorem feed_notMem_decimal (value : ℤ) : ch '\n' ∉ decimal value :=
  notMem_decimal (by decide) (by decide) value

/-- The line feeds of the line are its last byte and those of the texts in it. -/
theorem logLine_eq {clientIp timestamp host : Bytes} (method path : Bytes) (statusCode : ℤ)
    (ipClear : ch '\n' ∉ clientIp) (timeClear : ch '\n' ∉ timestamp) (hostClear : ch '\n' ∉ host) :
    ∃ line, Logger.logLine clientIp timestamp method path statusCode host = line ++ bytes "\n" ∧
      line.count (ch '\n') = method.count (ch '\n') + path.count (ch '\n') := by
  refine ⟨clientIp ++ bytes " - - [" ++ timestamp ++ bytes "] \"" ++ method ++ bytes " " ++ path ++
    bytes "\" " ++ decimal statusCode ++ bytes " (Host: " ++ host ++ bytes ")", ?_, ?_⟩
  · simp only [Logger.logLine, List.append_assoc]
    rfl
  · have fixed : ∀ text ∈ [bytes " - - [", bytes "] \"", bytes " ", bytes "\" ", bytes " (Host: ",
        bytes ")"], text.count (ch '\n') = 0 := by decide
    simp only [List.forall_mem_cons] at fixed
    have number := List.count_eq_zero_of_not_mem (feed_notMem_decimal statusCode)
    rw [← List.count_eq_zero] at ipClear timeClear hostClear
    simp only [List.count_append, ipClear, timeClear, hostClear, number, fixed]
    omega

end LetUsConnect
