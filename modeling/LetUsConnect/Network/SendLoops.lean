import LetUsConnect.Network.Response

/-!
# The results of the sending loops

Both loops end with `return n == -1 ? -1 : 0`, so the result is read from the
last answer of the operating system and not from the number of bytes sent.

In `send_all` the two agree, since every answer that ends its loop early leaves
-1 in `n`. In `send_file` they do not: the end of the file leaves 0 in `n`, and
a transfer of no bytes leaves `n` as it was declared.
-/

namespace LetUsConnect

open CString

/-! ## The outcomes of one call -/

/-- The bytes a system call took over. -/
def SystemCall.taken : SystemCall → ℕ
  | .send (.count sent) | .sendfile (.count sent) => sent
  | _ => 0

/-- No system call takes over more bytes than are left of those asked for. -/
def CountsWithin (asked : ℕ) : List SystemCall → Prop
  | [] => True
  | call :: calls => call.taken ≤ asked ∧ CountsWithin (asked - call.taken) calls

/-- The loop ended, and the outcomes are used up by then. -/
structure Transfer.Complete (transfer : Transfer) : Prop where
  ended : transfer.ended ≠ .running
  usedUp : transfer.rest = []

/-- The result 0 means that all was sent, and the result -1 that it was not. -/
def Transfer.Reports (whole : Bytes) (transfer : Transfer) : Prop :=
  (transfer.ended = .returned 0 ∧ transfer.accepted = whole) ∨
    (transfer.ended = .returned (-1) ∧ transfer.accepted <+: whole ∧ transfer.accepted ≠ whole)

namespace Transfer.Reports

variable {whole first rest : Bytes} {transfer : Transfer}

theorem all (ended : transfer.ended = .returned 0) (accepted : transfer.accepted = whole) :
    transfer.Reports whole := Or.inl ⟨ended, accepted⟩

theorem failed (ended : transfer.ended = .returned (-1)) (accepted : transfer.accepted = [])
    (left : whole ≠ []) : transfer.Reports whole :=
  Or.inr ⟨ended, accepted ▸ List.nil_prefix, accepted ▸ left.symm⟩

/-- A round that sends a first piece. -/
theorem cons (reports : transfer.Reports rest) (split : whole = first ++ rest) :
    Transfer.Reports whole { transfer with accepted := first ++ transfer.accepted } := by
  subst split
  rcases reports with ⟨ended, accepted⟩ | ⟨ended, accepted, short⟩
  · exact Or.inl ⟨ended, congrArg (first ++ ·) accepted⟩
  · refine Or.inr ⟨ended, (List.prefix_append_right_inj first).mpr accepted, ?_⟩
    exact fun same => short (List.append_cancel_left same)

theorem isPrefix (reports : transfer.Reports whole) : transfer.accepted <+: whole := by
  rcases reports with ⟨-, accepted⟩ | ⟨-, accepted, -⟩
  · exact accepted ▸ List.prefix_refl _
  · exact accepted

theorem returned_zero_iff (reports : transfer.Reports whole) :
    transfer.ended = .returned 0 ↔ transfer.accepted = whole := by
  rcases reports with ⟨ended, accepted⟩ | ⟨ended, -, short⟩
  · simp [ended, accepted]
  · simp [ended, short]

theorem returned_of_ne_zero (reports : transfer.Reports whole)
    (nonzero : transfer.ended ≠ .returned 0) : transfer.ended = .returned (-1) := by
  rcases reports with ⟨ended, -⟩ | ⟨ended, -⟩
  · exact absurd ended nonzero
  · exact ended

end Transfer.Reports

/-! ## `send_all` -/

/-- The variables of a sending loop. -/
structure LoopVariables where
  total : ℤ
  bytesleft : ℤ
  n : Option ℤ

/-- Their values after a round of `send_all` that stays in the loop. -/
def LoopVariables.afterSend (current : LoopVariables) : SystemCall → Option LoopVariables
  | .send (.count sent) => some ⟨current.total + sent, current.bytesleft - sent, some sent⟩
  | .send .interrupted => some { current with n := some (-1) }
  | _ => none

theorem LoopVariables.afterSend_cases {current next : LoopVariables} {call : SystemCall}
    (stays : current.afterSend call = some next) :
    (∃ sent : ℕ, call = .send (.count sent) ∧
        next = ⟨current.total + sent, current.bytesleft - sent, some sent⟩) ∨
      call = .send .interrupted ∧ next = { current with n := some (-1) } := by
  cases call with
  | send outcome =>
      cases outcome with
      | count sent => exact Or.inl ⟨sent, rfl, (Option.some.inj stays).symm⟩
      | interrupted => exact Or.inr ⟨rfl, (Option.some.inj stays).symm⟩
      | wouldBlock => cases stays
      | failed => cases stays
  | sendfile => cases stays

/-- A round moves the bytes taken over from one counter to the other. -/
theorem LoopVariables.afterSend_counters {current next : LoopVariables} {call : SystemCall}
    (stays : current.afterSend call = some next) :
    next.total = current.total + call.taken ∧
      next.bytesleft = current.bytesleft - call.taken := by
  rcases LoopVariables.afterSend_cases stays with ⟨sent, rfl, rfl⟩ | ⟨rfl, rfl⟩
  · exact ⟨rfl, rfl⟩
  · exact ⟨(Int.add_zero _).symm, (Int.sub_zero _).symm⟩

/-- Their values whenever `send_all` tests the condition of its loop. -/
def sendAllTests (len : ℤ) (current : LoopVariables) : List SystemCall → List LoopVariables
  | [] => [current]
  | call :: calls =>
      current ::
        if current.total < len then
          match current.afterSend call with
          | none => []
          | some next => sendAllTests len next calls
        else []

theorem mem_sendAllTests_cons {len : ℤ} {current later : LoopVariables} {call : SystemCall}
    {calls : List SystemCall} (passed : later ∈ sendAllTests len current (call :: calls)) :
    later = current ∨ current.total < len ∧ ∃ next, current.afterSend call = some next ∧
      later ∈ sendAllTests len next calls := by
  rw [sendAllTests, List.mem_cons] at passed
  rcases passed with here | passed
  · exact Or.inl here
  · split_ifs at passed with left
    · cases stays : current.afterSend call with
      | none => simp [stays] at passed
      | some next => exact Or.inr ⟨left, next, rfl, by simpa [stays] using passed⟩
    · simp at passed

theorem sendAllLoop_afterSend (buffer : Bytes) {len : ℤ} {current next : LoopVariables}
    {call : SystemCall} (left : current.total < len) (stays : current.afterSend call = some next)
    (calls : List SystemCall) :
    sendAllLoop buffer len current.total current.bytesleft current.n (call :: calls) =
      let transfer := sendAllLoop buffer len next.total next.bytesleft next.n calls
      { transfer with
        accepted := (buffer.drop current.total.toNat).take call.taken ++ transfer.accepted } := by
  rcases LoopVariables.afterSend_cases stays with ⟨sent, rfl, rfl⟩ | ⟨rfl, rfl⟩
  · rw [sendAllLoop, if_pos left]
    rfl
  · rw [sendAllLoop, if_pos left]
    rfl

/--
The loop has come from one test to a later one with these calls: the counters show
the bytes sent in between, and the rest of the run is that of the loop from there.
-/
structure ComesTo (buffer : Bytes) (len : ℤ) (current : LoopVariables)
    (calls : List SystemCall) (later : LoopVariables) (made rest : List SystemCall) : Prop where
  split : calls = made ++ rest
  total : later.total = current.total + (made.map SystemCall.taken).sum
  bytesleft : later.bytesleft = current.bytesleft - (made.map SystemCall.taken).sum
  continues : sendAllLoop buffer len current.total current.bytesleft current.n calls =
    let transfer := sendAllLoop buffer len later.total later.bytesleft later.n rest
    { transfer with
      accepted := (buffer.drop current.total.toNat).take (made.map SystemCall.taken).sum ++
        transfer.accepted }

theorem ComesTo.refl (buffer : Bytes) (len : ℤ) (current : LoopVariables)
    (calls : List SystemCall) : ComesTo buffer len current calls current [] calls where
  split := rfl
  total := (Int.add_zero _).symm
  bytesleft := (Int.sub_zero _).symm
  continues := rfl

/-- One more round before the others. -/
theorem ComesTo.cons {buffer : Bytes} {len : ℤ} {current next later : LoopVariables}
    {call : SystemCall} {calls made rest : List SystemCall} (nonneg : 0 ≤ current.total)
    (left : current.total < len) (stays : current.afterSend call = some next)
    (comes : ComesTo buffer len next calls later made rest) :
    ComesTo buffer len current (call :: calls) later (call :: made) rest := by
  have counters := LoopVariables.afterSend_counters stays
  have sent : ((call :: made).map SystemCall.taken).sum =
      call.taken + (made.map SystemCall.taken).sum := by
    rw [List.map_cons, List.sum_cons]
  refine ⟨?_, ?_, ?_, ?_⟩
  · rw [comes.split, List.cons_append]
  · rw [comes.total, counters.1, sent]
    omega
  · rw [comes.bytesleft, counters.2, sent]
    omega
  · have start : next.total.toNat = current.total.toNat + call.taken := by
      rw [counters.1]
      omega
    rw [sendAllLoop_afterSend buffer left stays, comes.continues, sent, start]
    simp only [← List.append_assoc, ← List.drop_drop, ← List.take_add]

/-- Each test is one the loop comes to, with the run still to be made. -/
theorem comesTo_of_mem_tests (buffer : Bytes) {len : ℤ} {current later : LoopVariables}
    {calls : List SystemCall} (nonneg : 0 ≤ current.total)
    (passed : later ∈ sendAllTests len current calls) :
    ∃ made rest, ComesTo buffer len current calls later made rest := by
  induction calls generalizing current with
  | nil =>
      rw [sendAllTests, List.mem_singleton] at passed
      exact ⟨[], [], passed ▸ .refl buffer len current []⟩
  | cons call calls ih =>
      rcases mem_sendAllTests_cons passed with rfl | ⟨left, next, stays, passed⟩
      · exact ⟨[], call :: calls, .refl buffer len later (call :: calls)⟩
      · have counters := LoopVariables.afterSend_counters stays
        rcases ih (by omega) passed with ⟨made, rest, comes⟩
        exact ⟨call :: made, rest, comes.cons nonneg left stays⟩

/-- The piece a `send` takes over continues the bytes sent before. -/
theorem drop_take_split (buffer : Bytes) {len total sent : ℕ} (within : sent ≤ len - total) :
    (buffer.take len).drop total =
      (buffer.drop total).take sent ++ (buffer.take len).drop (total + sent) := by
  have piece : ((buffer.take len).drop total).take sent = (buffer.drop total).take sent := by
    rw [List.drop_take, List.take_take, min_eq_left within]
  rw [← piece, ← List.drop_drop, List.take_append_drop]

theorem drop_take_ne_nil {buffer : Bytes} {len total : ℕ} (fits : len ≤ buffer.length)
    (left : total < len) : (buffer.take len).drop total ≠ [] := by
  rw [Ne, List.drop_eq_nil_iff, List.length_take]
  omega

theorem sendAllLoop_reports {buffer : Bytes} {len : ℕ} (fits : len ≤ buffer.length)
    {calls : List SystemCall} {total : ℕ} {n : Option ℤ}
    (last : len ≤ total → returnValue n = .returned 0) (within : CountsWithin (len - total) calls) :
    let transfer := sendAllLoop buffer len total (len - total) n calls
    transfer.ended = .running ∨ transfer.Reports ((buffer.take len).drop total) := by
  have nothing : ¬(total : ℤ) < len → (buffer.take len).drop total = [] := by
    intro done
    rw [List.drop_eq_nil_iff, List.length_take]
    omega
  induction calls generalizing total n with
  | nil =>
      simp only [sendAllLoop]
      split_ifs with left
      · exact Or.inl rfl
      · exact Or.inr (.all (last (by omega)) (nothing left).symm)
  | cons call calls ih =>
      simp only [sendAllLoop]
      split_ifs with left
      · have ne_nil := drop_take_ne_nil fits (by omega : total < len)
        cases call with
        | send outcome =>
            cases outcome with
            | count sent =>
                rcases within with ⟨atMost, within⟩
                have answered : returnValue (some (sent : ℤ)) = .returned 0 := by
                  rw [returnValue, if_neg (by omega)]
                have later := @ih (total + sent) (some sent) (fun _ => answered)
                  (by rw [← Nat.sub_sub]; exact within) fun done => by
                    rw [List.drop_eq_nil_iff, List.length_take]
                    omega
                rw [Int.natCast_add, ← Int.sub_sub] at later
                rcases later with running | reports
                · exact Or.inl running
                · exact Or.inr (reports.cons (drop_take_split buffer atMost))
            | interrupted => exact ih (fun done => absurd done (by omega)) within.2 nothing
            | wouldBlock => exact Or.inr (.failed rfl rfl ne_nil)
            | failed => exact Or.inr (.failed rfl rfl ne_nil)
        | sendfile => exact Or.inl rfl
      · exact Or.inr (.all (last (by omega)) (nothing left).symm)

/-- The bytes on the socket number what the calls have taken over. -/
theorem sendAllLoop_length {buffer : Bytes} {len : ℕ} (fits : len ≤ buffer.length)
    {calls : List SystemCall} {total : ℕ} {n : Option ℤ} (within : CountsWithin (len - total) calls)
    (complete : (sendAllLoop buffer len total (len - total) n calls).Complete) :
    (sendAllLoop buffer len total (len - total) n calls).accepted.length =
      (calls.map SystemCall.taken).sum := by
  induction calls generalizing total n with
  | nil =>
      rw [sendAllLoop]
      split_ifs <;> rfl
  | cons call calls ih =>
      rcases complete with ⟨ended, usedUp⟩
      rcases within with ⟨atMost, within⟩
      have left : (total : ℤ) < len := by
        by_contra done
        simp [sendAllLoop, done] at usedUp
      simp only [sendAllLoop, if_pos left] at ended usedUp ⊢
      rw [List.map_cons, List.sum_cons]
      cases call with
      | send outcome =>
          cases outcome with
          | count sent =>
              have piece : sent ≤ len - total := atMost
              have later := @ih (total + sent) (some sent) (by rw [← Nat.sub_sub]; exact within)
                ⟨by simpa [← Int.sub_sub] using ended, by simpa [← Int.sub_sub] using usedUp⟩
              rw [Int.natCast_add, ← Int.sub_sub] at later
              rw [List.length_append, later, Int.toNat_natCast, List.length_take, List.length_drop,
                SystemCall.taken]
              omega
          | interrupted =>
              rw [ih within ⟨ended, usedUp⟩]
              exact (Nat.zero_add _).symm
          | wouldBlock | failed =>
              have noMore : calls = [] := usedUp
              rw [noMore]
              rfl
      | sendfile => exact absurd rfl ended

/--
`send_all` puts a prefix of the buffer on the socket, of as many bytes as the calls
have taken over; the result says whether it is the whole buffer; at every test of the
loop the two counters show how much was sent and how much is left.
-/
theorem sendAll_exact {buffer : Bytes} {len : ℕ} {calls : List SystemCall} (positive : 1 ≤ len)
    (fits : len ≤ buffer.length) (within : CountsWithin len calls)
    (complete : (sendAll buffer len calls).Complete) :
    (sendAll buffer len calls).accepted <+: buffer.take len ∧
      (sendAll buffer len calls).accepted.length = (calls.map SystemCall.taken).sum ∧
      ((sendAll buffer len calls).ended = .returned 0 ↔
        (sendAll buffer len calls).accepted = buffer.take len) ∧
      ((sendAll buffer len calls).ended ≠ .returned 0 →
        (sendAll buffer len calls).ended = .returned (-1)) ∧
      ∀ current ∈ sendAllTests len ⟨0, len, none⟩ calls,
        current.total + current.bytesleft = len ∧
          ∃ made rest, ComesTo buffer len ⟨0, len, none⟩ calls current made rest := by
  have loop := @sendAllLoop_reports buffer len fits calls 0 none
    (fun done => absurd done (by omega)) within
  have unfolded : sendAll buffer len calls =
      sendAllLoop buffer len (0 : ℕ) (len - (0 : ℕ)) none calls := by
    simp [sendAll]
  have reports : (sendAll buffer len calls).Reports (buffer.take len) := by
    simpa [sendAll] using loop.resolve_left (by simpa [sendAll] using complete.ended)
  refine ⟨reports.isPrefix, ?_, reports.returned_zero_iff, reports.returned_of_ne_zero, ?_⟩
  · rw [unfolded] at complete ⊢
    exact sendAllLoop_length fits within complete
  · intro current passed
    rcases comesTo_of_mem_tests buffer le_rfl passed with ⟨made, rest, comes⟩
    refine ⟨?_, made, rest, comes⟩
    rw [comes.total, comes.bytesleft]
    dsimp only
    omega

/-- A short write, an interruption and the rest. -/
def resumedSend : List SystemCall := [.send (.count 1), .send .interrupted, .send (.count 1)]

theorem resumedSend_exact :
    (sendAll (bytes "ab") 2 resumedSend).accepted.length = 2 ∧
      (sendAll (bytes "ab") 2 resumedSend).accepted <+: (bytes "ab").take 2 ∧
      ((sendAll (bytes "ab") 2 resumedSend).ended = .returned 0 ↔
        (sendAll (bytes "ab") 2 resumedSend).accepted = (bytes "ab").take 2) ∧
      ∀ current ∈ sendAllTests 2 ⟨0, 2, none⟩ resumedSend,
        current.total + current.bytesleft = 2 := by
  have exact_ := @sendAll_exact (bytes "ab") 2 resumedSend (by decide) (by decide)
    ⟨by decide, by decide, by decide, trivial⟩ ⟨by decide, by decide⟩
  exact ⟨exact_.2.1, exact_.1, exact_.2.2.1,
    fun current passed => (exact_.2.2.2.2 current passed).1⟩

/-! ## `send_file` -/

/-- The piece a `sendfile` takes over continues the bytes sent before. -/
theorem fileRange_split (content : ℕ → UInt8) (offset count sent : ℕ) :
    fileRange content offset count =
      (fileRange content offset count).take sent ++
        fileRange content (offset + sent) (count - sent) := by
  rw [← drop_fileRange, List.take_append_drop]

@[simp] theorem length_fileRange (content : ℕ → UInt8) (offset count : ℕ) :
    (fileRange content offset count).length = count := by
  simp [fileRange]

theorem sendFileLoop_reports (content : ℕ → UInt8) {len : ℕ} {calls : List SystemCall}
    {offset total : ℕ} {n : Option ℤ} (last : len ≤ total → returnValue n = .returned 0)
    (noEof : .sendfile (.count 0) ∉ calls) :
    let transfer := sendFileLoop content offset len total (len - total) n calls
    transfer.ended = .running ∨
      transfer.Reports (fileRange content offset (len - total)) := by
  have nothing : len ≤ total → ∀ offset, fileRange content offset (len - total) = [] := by
    intro done offset
    rw [Nat.sub_eq_zero_of_le done]
    rfl
  induction calls generalizing offset total n with
  | nil =>
      simp only [sendFileLoop]
      split_ifs with left
      · exact Or.inl rfl
      · exact Or.inr (.all (last (by omega)) (nothing (by omega) offset).symm)
  | cons call calls ih =>
      rw [List.mem_cons, not_or] at noEof
      simp only [sendFileLoop]
      split_ifs with left
      · have remaining : ((len : ℤ) - total).toNat = len - total := by omega
        have ne_nil : fileRange content offset (len - total) ≠ [] := by
          rw [← List.length_pos_iff, length_fileRange]
          omega
        cases call with
        | sendfile outcome =>
            cases outcome with
            | count sent =>
                have positive : sent ≠ 0 := fun zero => noEof.1 (by rw [zero])
                have answered : returnValue (some (sent : ℤ)) = .returned 0 := by
                  rw [returnValue, if_neg (by omega)]
                have later := @ih (offset + sent) (total + sent) (some sent) (fun _ => answered)
                  noEof.2 fun done offset => by rw [Nat.sub_eq_zero_of_le done]; rfl
                rw [Int.natCast_add total, Int.natCast_add, ← Int.sub_sub] at later
                dsimp only
                rw [if_neg positive, Int.toNat_natCast, remaining]
                rcases later with running | reports
                · exact Or.inl running
                · rw [← Nat.sub_sub] at reports
                  exact Or.inr (reports.cons (fileRange_split content _ _ sent))
            | interrupted => exact ih (fun done => absurd done (by omega)) noEof.2 nothing
            | wouldBlock => exact ih (fun done => absurd done (by omega)) noEof.2 nothing
            | failed => exact Or.inr (.failed rfl rfl ne_nil)
        | send => exact Or.inl rfl
      · exact Or.inr (.all (last (by omega)) (nothing (by omega) offset).symm)

/-- The end of the file ends the loop with the result 0 before all bytes are sent. -/
theorem sendFileLoop_eof (content : ℕ → UInt8) {len : ℕ} {calls : List SystemCall}
    {offset total : ℕ} {n : Option ℤ} (within : CountsWithin (len - total) calls)
    (eof : .sendfile (.count 0) ∈ calls)
    (complete : (sendFileLoop content offset len total (len - total) n calls).Complete) :
    let transfer := sendFileLoop content offset len total (len - total) n calls
    transfer.ended = .returned 0 ∧ transfer.accepted.length < len - total := by
  induction calls generalizing offset total n with
  | nil => cases eof
  | cons call calls ih =>
      rcases complete with ⟨ended, usedUp⟩
      rcases within with ⟨atMost, within⟩
      have left : (total : ℤ) < len := by
        by_contra done
        simp [sendFileLoop, done] at usedUp
      have remaining : ((len : ℤ) - total).toNat = len - total := by omega
      simp only [sendFileLoop, if_pos left] at ended usedUp ⊢
      cases call with
      | sendfile outcome =>
          cases outcome with
          | count sent =>
              dsimp only at ended usedUp ⊢
              split_ifs at ended usedUp ⊢ with zero
              · refine ⟨rfl, ?_⟩
                rw [List.length_nil]
                omega
              · have later := @ih (offset + sent) (total + sent) (some sent)
                  (by rw [← Nat.sub_sub]; exact within)
                  ((List.mem_cons.mp eof).resolve_left (by simp [Ne.symm zero]))
                  ⟨by simpa [← Int.sub_sub] using ended, by simpa [← Int.sub_sub] using usedUp⟩
                rw [Int.natCast_add total, Int.natCast_add, ← Int.sub_sub] at later
                refine ⟨later.1, ?_⟩
                have rest := later.2
                have piece : sent ≤ len - total := atMost
                rw [List.length_append, remaining, List.length_take, length_fileRange]
                omega
          | interrupted =>
              exact ih within ((List.mem_cons.mp eof).resolve_left (by simp)) ⟨ended, usedUp⟩
          | wouldBlock =>
              exact ih within ((List.mem_cons.mp eof).resolve_left (by simp)) ⟨ended, usedUp⟩
          | failed =>
              have noMore : calls = [] := usedUp
              simp [noMore] at eof
      | send => exact absurd rfl ended

/-- The result of `send_file` tells whether the bytes asked for are on the socket. -/
def ReportsBody (content : ℕ → UInt8) (offset len : ℕ) (calls : List SystemCall) : Prop :=
  (sendFile content offset len calls).Reports (fileRange content offset len)

/--
The result of `send_file` can be relied on exactly when there is something to
send and no `sendfile` comes to the end of the file.
-/
theorem reportsBody_iff {content : ℕ → UInt8} {offset len : ℕ} {calls : List SystemCall}
    (isInt : len < 2 ^ 31) (within : CountsWithin len calls)
    (complete : (sendFile content offset len calls).Complete) :
    ReportsBody content offset len calls ↔ 0 < len ∧ .sendfile (.count 0) ∉ calls := by
  have unfolded : sendFile content offset len calls =
      sendFileLoop content offset len (0 : ℕ) (len - (0 : ℕ)) none calls := by
    rw [sendFile, toInt_eq_self (by omega) (by omega)]
    simp
  rw [ReportsBody]
  rw [unfolded] at complete ⊢
  constructor
  · intro reports
    constructor
    · by_contra empty
      have indeterminate :
          (sendFileLoop content offset len (0 : ℕ) (len - (0 : ℕ)) none calls).ended =
            .indeterminate := by
        have zero : len = 0 := by omega
        subst zero
        cases calls <;> rfl
      rcases reports with ⟨ended, -⟩ | ⟨ended, -⟩ <;> rw [indeterminate] at ended <;> cases ended
    · intro eof
      have short := @sendFileLoop_eof content len calls offset 0 none within eof complete
      have whole := congrArg List.length (reports.returned_zero_iff.mp short.1)
      rw [length_fileRange] at whole
      have shorter := short.2
      omega
  · rintro ⟨positive, noEof⟩
    have loop := @sendFileLoop_reports content len calls offset 0 none
      (fun done => absurd done (by omega)) noEof
    exact loop.resolve_left complete.ended

/-- An interruption, a full socket buffer and a transfer in two pieces. -/
def resumedTransfer : List SystemCall :=
  [.sendfile .interrupted, .sendfile (.count 1), .sendfile .wouldBlock, .sendfile (.count 1)]

theorem resumedTransfer_reportsBody :
    ReportsBody (fun _ => 7) 3 2 resumedTransfer ↔
      0 < 2 ∧ .sendfile (.count 0) ∉ resumedTransfer :=
  reportsBody_iff (by decide) ⟨by decide, by decide, by decide, by decide, trivial⟩
    ⟨by decide, by decide⟩

/-- A file that was truncated after its size was read is sent with the result 0. -/
theorem truncatedFile_unreported :
    ¬∀ (content : ℕ → UInt8) (offset len : ℕ) (calls : List SystemCall), len < 2 ^ 31 →
        CountsWithin len calls → (sendFile content offset len calls).Complete →
          ReportsBody content offset len calls := by
  intro always
  have complete : (sendFile (fun _ => 0) 0 1 [.sendfile (.count 0)]).Complete :=
    ⟨by decide, by decide⟩
  rcases always (fun _ => 0) 0 1 [.sendfile (.count 0)] (by decide) ⟨by decide, trivial⟩ complete
    with ⟨-, accepted⟩ | ⟨ended, -⟩
  · exact absurd accepted (by decide)
  · exact absurd ended (by decide)

end LetUsConnect
