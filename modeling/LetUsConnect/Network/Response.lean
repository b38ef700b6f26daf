import LetUsConnect.Lib.CString

/-!
# Sending responses

The sending half of `src/network/network.c`. `send_all` and `send_file` are
loops over the outcomes of the system calls they make, so they are defined by
recursion on the list of those outcomes; an outcome list that ends while a loop
still runs describes a call that has not returned yet.

The functions above them build texts and call `send_all`. What they do is given
as the list of their actions. No caller of `send_response_head`, `send_all` or
`send_file` looks at the result, so the actions do not depend on outcomes.
-/

namespace LetUsConnect

open CString

/-! ## The sending loops -/

/-- The result of one `send` or `sendfile`. -/
inductive Outcome where
  /-- That many bytes were taken over. -/
  | count (bytes : ℕ)
  /-- -1 with `EINTR`. -/
  | interrupted
  /-- -1 with `EAGAIN` or `EWOULDBLOCK`. -/
  | wouldBlock
  /-- -1 with any other `errno`. -/
  | failed
  deriving DecidableEq

/-- A system call on the client socket with its result. -/
inductive SystemCall where
  | send (outcome : Outcome)
  | sendfile (outcome : Outcome)
  deriving DecidableEq

/-- How far a call of `send_all` or `send_file` has come. -/
inductive CallEnd where
  /-- The loop has not ended. -/
  | running
  /-- The call returned a value read from the never assigned variable `n`. -/
  | indeterminate
  | returned (value : ℤ)
  deriving DecidableEq

/-- The bytes a call put on the socket, how it ended, and the system calls after it. -/
structure Transfer where
  accepted : Bytes
  ended : CallEnd
  rest : List SystemCall

/-- `return n == -1 ? -1 : 0`. -/
def returnValue : Option ℤ → CallEnd
  | none => .indeterminate
  | some n => .returned (if n = -1 then -1 else 0)

theorem returnValue_ne_running (n : Option ℤ) : returnValue n ≠ .running := by
  cases n <;> simp [returnValue]

/-- The loop of `send_all`, entered with the given values of its variables. -/
def sendAllLoop (buffer : Bytes) (len total bytesleft : ℤ) (n : Option ℤ) :
    List SystemCall → Transfer
  | [] => if total < len then ⟨[], .running, []⟩ else ⟨[], returnValue n, []⟩
  | call :: calls =>
      if total < len then
        match call with
        | .send (.count sent) =>
            let later := sendAllLoop buffer len (total + sent) (bytesleft - sent) (some sent) calls
            { later with accepted := (buffer.drop total.toNat).take sent ++ later.accepted }
        | .send .interrupted => sendAllLoop buffer len total bytesleft (some (-1)) calls
        | .send .wouldBlock => ⟨[], .returned (-1), calls⟩
        | .send .failed => ⟨[], returnValue (some (-1)), calls⟩
        -- `send_all` makes no other system call
        | .sendfile _ => ⟨[], .running, call :: calls⟩
      else ⟨[], returnValue n, call :: calls⟩

def sendAll (buffer : Bytes) (len : ℤ) (calls : List SystemCall) : Transfer :=
  sendAllLoop buffer len 0 len none calls

/-- The bytes of a file from an offset on. -/
def fileRange (content : ℕ → UInt8) (offset count : ℕ) : Bytes :=
  (List.range count).map fun i => content (offset + i)

/-- The loop of `send_file`; the kernel advances `offset` by what it transferred. -/
def sendFileLoop (content : ℕ → UInt8) (offset len total bytesleft : ℤ) (n : Option ℤ) :
    List SystemCall → Transfer
  | [] => if total < len then ⟨[], .running, []⟩ else ⟨[], returnValue n, []⟩
  | call :: calls =>
      if total < len then
        match call with
        | .sendfile (.count sent) =>
            if sent = 0 then ⟨[], returnValue (some 0), calls⟩
            else
              let later := sendFileLoop content (offset + sent) len (total + sent)
                (bytesleft - sent) (some sent) calls
              { later with
                accepted := (fileRange content offset.toNat bytesleft.toNat).take sent ++
                  later.accepted }
        | .sendfile .interrupted =>
            sendFileLoop content offset len total bytesleft (some (-1)) calls
        | .sendfile .wouldBlock =>
            sendFileLoop content offset len total bytesleft (some (-1)) calls
        | .sendfile .failed => ⟨[], returnValue (some (-1)), calls⟩
        -- `send_file` makes no other system call
        | .send _ => ⟨[], .running, call :: calls⟩
      else ⟨[], returnValue n, call :: calls⟩

/-- `send_file`; the `off_t` argument is converted to the `int` parameter `len`. -/
def sendFile (content : ℕ → UInt8) (offset size : ℤ) (calls : List SystemCall) : Transfer :=
  sendFileLoop content offset (toInt size) 0 (toInt size) none calls

/-! ## What a call puts on the socket -/

namespace SystemCall

/-- The outcomes after which `send_all` and `send_file` end although bytes are left. -/
def givesUp : SystemCall → Bool
  | .send .wouldBlock | .send .failed | .sendfile (.count 0) | .sendfile .failed => true
  | _ => false

/-- Whether the call put bytes on the socket. -/
def carries : SystemCall → Bool
  | .send (.count sent) | .sendfile (.count sent) => sent != 0
  | _ => false

end SystemCall

/--
What holds of every call that is to transfer `whole` and makes the system calls
`made`: the socket gets a prefix of it, which is empty exactly when none of them
took any bytes. A call that gives up does so with the last of them.
-/
structure Transfers (whole : Bytes) (calls made : List SystemCall) (transfer : Transfer) :
    Prop where
  isPrefix : transfer.accepted <+: whole
  split : calls = made ++ transfer.rest
  silent_iff : transfer.accepted = [] ↔ ∀ call ∈ made, call.carries = false
  outcome :
    (∀ call ∈ made, call.givesUp = false) ∧
        (transfer.ended = .running ∨ transfer.accepted = whole) ∨
      ∃ before last, made = before ++ [last] ∧ (∀ call ∈ before, call.givesUp = false) ∧
        last.givesUp ∧ transfer.ended ≠ .running ∧ transfer.accepted ≠ whole

namespace Transfers

variable {whole : Bytes} {call : SystemCall} {calls made : List SystemCall}

theorem cons {first rest : Bytes} {later : Transfer} (transfers : Transfers rest calls made later)
    (split : whole = first ++ rest) (goesOn : call.givesUp = false)
    (quiet : first = [] ↔ call.carries = false) :
    Transfers whole (call :: calls) (call :: made)
      { later with accepted := first ++ later.accepted } where
  isPrefix := split ▸ (List.prefix_append_right_inj _).mpr transfers.isPrefix
  split := congrArg (call :: ·) transfers.split
  silent_iff := by
    rw [List.append_eq_nil_iff, List.forall_mem_cons, quiet, transfers.silent_iff]
  outcome := by
    rcases transfers.outcome with ⟨goOn, ended⟩ | ⟨before, last, rfl, goOn, gaveUp, ended, cut⟩
    · refine Or.inl ⟨List.forall_mem_cons.mpr ⟨goesOn, goOn⟩, ended.imp id fun complete => ?_⟩
      exact split ▸ congrArg (first ++ ·) complete
    · refine Or.inr ⟨call :: before, last, rfl, List.forall_mem_cons.mpr ⟨goesOn, goOn⟩, gaveUp,
        ended, fun complete => cut ?_⟩
      exact List.append_cancel_left (complete.trans split)

/-- A repeated system call leaves the transfer as it is. -/
theorem again {later : Transfer} (transfers : Transfers whole calls made later)
    (goesOn : call.givesUp = false) (quiet : call.carries = false) :
    Transfers whole (call :: calls) (call :: made) later :=
  transfers.cons (show whole = [] ++ whole from rfl) goesOn (iff_of_true rfl quiet)

theorem running (whole : Bytes) (calls : List SystemCall) :
    Transfers whole calls [] ⟨[], .running, calls⟩ where
  isPrefix := List.nil_prefix
  split := rfl
  silent_iff := by simp
  outcome := Or.inl ⟨by simp, Or.inl rfl⟩

theorem complete (nothing : whole = []) (ended : CallEnd) :
    Transfers whole calls [] ⟨[], ended, calls⟩ where
  isPrefix := List.nil_prefix
  split := rfl
  silent_iff := by simp
  outcome := Or.inl ⟨by simp, Or.inr nothing.symm⟩

theorem gaveUp (gaveUp : call.givesUp) (quiet : call.carries = false) (left : whole ≠ [])
    {ended : CallEnd} (returned : ended ≠ .running) :
    Transfers whole (call :: calls) [call] ⟨[], ended, calls⟩ where
  isPrefix := List.nil_prefix
  split := rfl
  silent_iff := by simp [quiet]
  outcome := Or.inr ⟨[], call, rfl, by simp, gaveUp, returned, left.symm⟩

end Transfers

theorem sendAllLoop_transfers (buffer : Bytes) (calls : List SystemCall) (total : ℕ)
    (bytesleft : ℤ) (n : Option ℤ) :
    ∃ made, Transfers (buffer.drop total) calls made
      (sendAllLoop buffer buffer.length total bytesleft n calls) := by
  induction calls generalizing total bytesleft n with
  | nil =>
      simp only [sendAllLoop]
      split_ifs with left
      · exact ⟨[], .running _ _⟩
      · exact ⟨[], .complete (List.drop_eq_nil_of_le (by omega)) _⟩
  | cons call calls ih =>
      simp only [sendAllLoop]
      split_ifs with left
      · have rest : buffer.drop total ≠ [] := by
          rw [Ne, List.drop_eq_nil_iff]
          omega
        cases call with
        | send outcome =>
            cases outcome with
            | count sent =>
                rcases ih (total + sent) (bytesleft - sent) (some sent) with ⟨made, transfers⟩
                refine ⟨_, transfers.cons ?_ rfl ?_⟩
                · rw [Int.toNat_natCast, ← List.drop_drop, List.take_append_drop]
                · rw [Int.toNat_natCast, List.take_eq_nil_iff, or_iff_left rest]
                  simp [SystemCall.carries]
            | interrupted =>
                rcases ih total bytesleft (some (-1)) with ⟨made, transfers⟩
                exact ⟨_, transfers.again rfl rfl⟩
            | wouldBlock => exact ⟨_, .gaveUp rfl rfl rest (by simp)⟩
            | failed => exact ⟨_, .gaveUp rfl rfl rest (returnValue_ne_running _)⟩
        | sendfile => exact ⟨[], .running _ _⟩
      · exact ⟨[], .complete (List.drop_eq_nil_of_le (by omega)) _⟩

/-- `send_all` of a whole text. -/
theorem sendAll_transfers (buffer : Bytes) (calls : List SystemCall) :
    ∃ made, Transfers buffer calls made (sendAll buffer buffer.length calls) :=
  sendAllLoop_transfers buffer calls 0 buffer.length none

theorem drop_fileRange (content : ℕ → UInt8) (offset count sent : ℕ) :
    (fileRange content offset count).drop sent =
      fileRange content (offset + sent) (count - sent) := by
  apply List.ext_getElem
  · simp [fileRange]
  · intro i _ _
    simp [fileRange, Nat.add_assoc]

theorem fileRange_eq_nil {content : ℕ → UInt8} {offset count : ℕ} :
    fileRange content offset count = [] ↔ count = 0 := by
  rw [fileRange, List.map_eq_nil_iff, List.range_eq_nil]

theorem sendFileLoop_transfers (content : ℕ → UInt8) (len : ℕ) (calls : List SystemCall)
    (total : ℕ) (n : Option ℤ) :
    ∃ made, Transfers (fileRange content total (len - total)) calls made
      (sendFileLoop content total len total (len - total) n calls) := by
  have nothing : ∀ total : ℕ, ¬(total : ℤ) < len → fileRange content total (len - total) = [] :=
    fun total done => fileRange_eq_nil.mpr (by omega)
  induction calls generalizing total n with
  | nil =>
      simp only [sendFileLoop]
      split_ifs with left
      · exact ⟨[], .running _ _⟩
      · exact ⟨[], .complete (nothing total left) _⟩
  | cons call calls ih =>
      simp only [sendFileLoop]
      split_ifs with left
      · have rest : fileRange content total (len - total) ≠ [] := by
          rw [Ne, fileRange_eq_nil]
          omega
        cases call with
        | sendfile outcome =>
            cases outcome with
            | count sent =>
                dsimp only
                split_ifs with eof
                · exact ⟨_, .gaveUp (by rw [eof]; rfl) (by rw [eof]; rfl) rest
                    (returnValue_ne_running _)⟩
                · rcases ih (total + sent) (some sent) with ⟨made, later⟩
                  rw [Int.natCast_add, ← Int.sub_sub] at later
                  have remaining : ((len : ℤ) - total).toNat = len - total := by omega
                  have goesOn : (SystemCall.sendfile (.count sent)).givesUp = false := by
                    cases sent with
                    | zero => exact absurd rfl eof
                    | succ => rfl
                  refine ⟨_, later.cons ?_ goesOn ?_⟩
                  · rw [Int.toNat_natCast, remaining, ← Nat.sub_sub, ← drop_fileRange,
                      List.take_append_drop]
                  · rw [Int.toNat_natCast, remaining, List.take_eq_nil_iff, or_iff_left rest]
                    simp [SystemCall.carries]
            | interrupted | wouldBlock =>
                rcases ih total (some (-1)) with ⟨made, transfers⟩
                exact ⟨_, transfers.again rfl rfl⟩
            | failed => exact ⟨_, .gaveUp rfl rfl rest (returnValue_ne_running _)⟩
        | send => exact ⟨[], .running _ _⟩
      · exact ⟨[], .complete (nothing total left) _⟩

/-- `send_file` of a file whose size an `int` can hold. -/
theorem sendFile_transfers (content : ℕ → UInt8) {size : ℕ} (fits : size < 2 ^ 31)
    (calls : List SystemCall) :
    ∃ made, Transfers (fileRange content 0 size) calls made (sendFile content 0 size calls) := by
  rw [sendFile, toInt_eq_self (by omega) (by omega)]
  simpa using sendFileLoop_transfers content size calls 0 none

theorem sendAllLoop_accepted {buffer : Bytes} {calls : List SystemCall} (total : ℕ)
    {bytesleft : ℤ} {n : Option ℤ}
    (success : (sendAllLoop buffer buffer.length total bytesleft n calls).ended = .returned 0) :
    (sendAllLoop buffer buffer.length total bytesleft n calls).accepted = buffer.drop total := by
  induction calls generalizing total bytesleft n with
  | nil =>
      simp only [sendAllLoop] at success ⊢
      split_ifs at success ⊢ with left
      exact (List.drop_eq_nil_of_le (by omega)).symm
  | cons call calls ih =>
      simp only [sendAllLoop] at success ⊢
      split_ifs at success ⊢ with left
      · cases call with
        | send outcome =>
            cases outcome with
            | count sent =>
                have later := ih (total + sent) success
                simp only [Int.natCast_add] at later
                dsimp only
                rw [later, Int.toNat_natCast, ← List.drop_drop, List.take_append_drop]
            | interrupted => exact ih total success
            | wouldBlock => simp at success
            | failed => simp [returnValue] at success
        | sendfile => simp at success
      · exact (List.drop_eq_nil_of_le (by omega)).symm

theorem sendAll_accepted {buffer : Bytes} {calls : List SystemCall}
    (success : (sendAll buffer buffer.length calls).ended = .returned 0) :
    (sendAll buffer buffer.length calls).accepted = buffer :=
  sendAllLoop_accepted 0 success

theorem sendAll_at_once (buffer : Bytes) (nonempty : buffer ≠ []) :
    (sendAll buffer buffer.length [.send (.count buffer.length)]).ended = .returned 0 := by
  have positive : 0 < buffer.length := List.length_pos_iff.mpr nonempty
  have notFailed : (buffer.length : ℤ) ≠ -1 := by omega
  simp [sendAll, sendAllLoop, returnValue, positive, notFailed]

/-! ## Responses -/

/-- The operations by which the handling of a request shows outside the program, in order. -/
inductive Action where
  /-- The `send_all` of `send_response_head`. -/
  | sendHead (buffer : Bytes) (len : ℤ)
  /-- Any other `send_all`. -/
  | sendBody (buffer : Bytes) (len : ℤ)
  /-- `send_file(client_fd, file_fd, offset, size)` on a file with that content. -/
  | sendFile (content : ℕ → UInt8) (fileFd : ℕ) (offset size : ℤ)
  | mkdir (path : Bytes)
  /-- `open`; `none` is the result -1. -/
  | openFile (path : Bytes) (fileFd : Option ℕ)
  /-- `write`; the answer is the number of bytes written, `none` is the result -1. -/
  | write (fileFd : ℕ) (text : Bytes) (written : Option ℕ)
  | closeFile (fileFd : ℕ)
  | printf (text : Bytes)
  | logRequest (clientIp : Bytes) (method path : Option Bytes) (statusCode : ℕ)
      (host : Option Bytes)

/-- The lines of a response head before the extra header. -/
def headLines (status text contentType : Bytes) (contentLength : ℤ) (keepAlive : Bool) :
    List Bytes :=
  [bytes "HTTP/1.1 " ++ status ++ bytes " " ++ text,
    bytes "Server: Let-us-Connect/1.0",
    bytes "Content-Type: " ++ contentType,
    bytes "Content-Length: " ++ decimal (toInt contentLength),
    bytes "Connection: " ++ (if keepAlive then bytes "keep-alive" else bytes "close")]

/-- Lines, each with its line end. -/
def withLineEnds (lines : List Bytes) : Bytes := lines.flatMap (· ++ crlf)

/-- What the format string of `send_response_head` expands to. -/
def headText (status text contentType : Bytes) (contentLength : ℤ) (extra : Option Bytes)
    (keepAlive : Bool) : Bytes :=
  withLineEnds (headLines status text contentType contentLength keepAlive) ++
    extra.getD [] ++ crlf

/-- `send_response_head`; `len` is the return value of `snprintf`. -/
def sendResponseHead (status text contentType : Bytes) (contentLength : ℤ)
    (extra : Option Bytes) (keepAlive : Bool) : Action :=
  .sendHead (snprintf 1024 (headText status text contentType contentLength extra keepAlive))
    (headText status text contentType contentLength extra keepAlive).length

/-- The reason phrases of `send_error`. -/
def errorText (code : ℕ) : Bytes :=
  match code with
  | 404 => bytes "Not Found"
  | 400 => bytes "Bad Request"
  | 403 => bytes "Forbidden"
  | 405 => bytes "Method Not Allowed"
  | 411 => bytes "Length Required"
  | 501 => bytes "Not Implemented"
  | 505 => bytes "HTTP/1.1 505 HTTP Version Not Supported"
  | _ => bytes "Internal Server Error"

/-- The page sent with an error status. -/
def errorBody (code : ℕ) : Bytes :=
  bytes "<html><body><h1>" ++ decimal code ++ bytes " " ++ errorText code ++
    bytes "</h1><p>Let-us-Connect Server</p></body></html>"

def sendError (code : ℕ) : List Action :=
  [sendResponseHead (decimal code) (errorText code) (bytes "text/html") (errorBody code).length
      (some []) false,
    .sendBody (snprintf 512 (errorBody code)) (errorBody code).length]

def sendNotModified (lastModified : Bytes) (keepAlive : Bool) : List Action :=
  [sendResponseHead (bytes "304") (bytes "Not Modified") (bytes "text/plain") 0
    (some (snprintf 256 (bytes "Last-Modified: " ++ lastModified ++ crlf))) keepAlive]

/-- The extra header of a 201 response, cut to its buffer. -/
def locationHeader (location : Bytes) : Bytes :=
  snprintf 256 (bytes "Location: " ++ location ++ crlf)

/-- The text sent with a 201 response. -/
def createdBody : Bytes := bytes "Resource successfully created.\n"

def sendCreated (location : Bytes) (keepAlive : Bool) : List Action :=
  [sendResponseHead (bytes "201") (bytes "Created") (bytes "text/plain") createdBody.length
      (some (locationHeader location)) keepAlive,
    .sendBody createdBody createdBody.length]

end LetUsConnect
