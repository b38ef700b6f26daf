import Mathlib.Algebra.Order.Ring.Int
import Mathlib.Data.List.DropRight
import Mathlib.Data.List.Infix
import Mathlib.Data.Int.Order.Basic

/-!
# Text functions of the C library

NUL-terminated text is the list of its bytes without the terminator. The
functions below follow the C library in the "C" locale; pointers into a text are
offsets, and a pointer that may be `NULL` is an optional offset. Each function
is computable, and each comes with the facts by which its results are located
in the text it was applied to.
-/

namespace CString

/-- The bytes of a text. -/
abbrev Bytes := List UInt8

/-- The byte of an ASCII character. -/
def ch (character : Char) : UInt8 := UInt8.ofNat character.toNat

/-- The bytes of an ASCII literal. -/
def bytes (literal : String) : Bytes := literal.toList.map ch

/-- The line end of network protocols. -/
def crlf : Bytes := [13, 10]

/-- The text found at the start of a block of memory: everything before the first NUL. -/
def cstr (memory : Bytes) : Bytes := memory.takeWhile (· != 0)

theorem cstr_eq_self {memory : Bytes} (free : 0 ∉ memory) : cstr memory = memory := by
  rw [cstr, List.takeWhile_eq_self_iff]
  intro byte member
  simpa using fun equal : byte = 0 => free (equal ▸ member)

theorem zero_notMem_cstr (memory : Bytes) : 0 ∉ cstr memory := by
  intro member
  simpa using List.mem_takeWhile_imp member

theorem cstr_append_zero (text rest : Bytes) : cstr (text ++ 0 :: rest) = cstr text := by
  induction text with
  | nil => simp [cstr]
  | cons byte text ih =>
      by_cases zero : byte = 0
      · simp [cstr, zero]
      · simpa [cstr, zero] using ih

theorem cstr_isPrefix (memory : Bytes) : cstr memory <+: memory :=
  List.takeWhile_prefix _

/-! ## Characters -/

/-- `isspace`: space, tab, line feed, vertical tab, form feed and carriage return. -/
def isspace (byte : UInt8) : Bool := byte == 32 || (9 ≤ byte && byte ≤ 13)

def isdigit (byte : UInt8) : Bool := 48 ≤ byte && byte ≤ 57

def tolower (byte : UInt8) : UInt8 := if 65 ≤ byte && byte ≤ 90 then byte + 32 else byte

theorem tolower_cases (byte : UInt8) :
    (65 ≤ byte.toNat ∧ byte.toNat ≤ 90 ∧ (tolower byte).toNat = byte.toNat + 32) ∨
      tolower byte = byte := by
  rw [tolower]
  split_ifs with upper
  · simp only [Bool.and_eq_true, decide_eq_true_eq, UInt8.le_iff_toNat_le] at upper
    rcases upper with ⟨low, high⟩
    change byte.toNat ≤ 90 at high
    refine Or.inl ⟨low, high, ?_⟩
    rw [UInt8.toNat_add]
    change (byte.toNat + 32) % 256 = _
    omega
  · exact Or.inr rfl

theorem tolower_tolower (byte : UInt8) : tolower (tolower byte) = tolower byte := by
  rcases tolower_cases byte with ⟨low, -, lower⟩ | same
  · rcases tolower_cases (tolower byte) with ⟨-, high, -⟩ | same
    · omega
    · exact same
  · rw [same, same]

/-- Only a capital letter becomes another character, which is then a small letter. -/
theorem tolower_ne {byte other : UInt8} (differs : byte ≠ other) (small : other.toNat < 97) :
    tolower byte ≠ other := by
  rcases tolower_cases byte with ⟨low, -, lower⟩ | same
  · rintro rfl
    omega
  · rwa [same]

theorem isspace_tolower (byte : UInt8) : isspace (tolower byte) = isspace byte := by
  have above : ∀ other : UInt8, 32 < other.toNat → isspace other = false := by
    intro other large
    have notBlank : other ≠ 32 := by
      rintro rfl
      exact absurd large (by decide)
    have high : ¬other ≤ 13 := by
      rw [UInt8.le_iff_toNat_le]
      change ¬other.toNat ≤ 13
      omega
    simp [isspace, notBlank, high]
  rcases tolower_cases byte with ⟨low, -, lower⟩ | same
  · rw [above byte (by omega), above (tolower byte) (by omega)]
  · rw [same]

/-- The result `strcasecmp(left, right) == 0`. -/
def strcaseeq (left right : Bytes) : Bool := left.map tolower == right.map tolower

/-! ## Searching -/

/-- `strstr`: the offset of the first occurrence of `needle`. -/
def strstr : Bytes → Bytes → Option ℕ
  | [], needle => if needle.isEmpty then some 0 else none
  | byte :: rest, needle =>
      if needle.isPrefixOf (byte :: rest) then some 0 else (strstr rest needle).map (· + 1)

/-- `strcasestr`: the offset of the first occurrence of `needle` in any capitalization. -/
def strcasestr (text needle : Bytes) : Option ℕ :=
  strstr (text.map tolower) (needle.map tolower)

/-- `strchr` as a split: the text before the first `byte` and the text after it. -/
def strchr (text : Bytes) (byte : UInt8) : Option (Bytes × Bytes) :=
  match text.dropWhile (· != byte) with
  | [] => none
  | _ :: rest => some (text.takeWhile (· != byte), rest)

theorem strchr_append {before : Bytes} {byte : UInt8} (absent : byte ∉ before) (after : Bytes) :
    strchr (before ++ byte :: after) byte = some (before, after) := by
  have passes : ∀ other ∈ before, (other != byte) = true := by
    intro other member
    simpa using fun same : other = byte => absent (same ▸ member)
  rw [strchr, List.dropWhile_append_of_pos passes, List.takeWhile_append_of_pos passes]
  simp

/-- A text is cut in only one way at its first `byte`. -/
theorem append_cons_unique {before other after remaining : Bytes} {byte : UInt8}
    (absent : byte ∉ before) (otherAbsent : byte ∉ other)
    (same : before ++ byte :: after = other ++ byte :: remaining) :
    before = other ∧ after = remaining := by
  have cut := strchr_append absent after
  rw [same, strchr_append otherAbsent remaining] at cut
  simp only [Option.some.injEq, Prod.mk.injEq] at cut
  exact ⟨cut.1.symm, cut.2.symm⟩

/-- An offset found by `strstr` is the least one at which `needle` occurs. -/
theorem strstr_eq_some_iff {text needle : Bytes} {offset : ℕ} :
    strstr text needle = some offset ↔
      offset ≤ text.length ∧ needle <+: text.drop offset ∧
        ∀ earlier < offset, ¬needle <+: text.drop earlier := by
  induction text generalizing offset with
  | nil =>
      cases needle with
      | nil => cases offset <;> simp [strstr]
      | cons => simp [strstr]
  | cons byte rest ih =>
      rw [strstr]
      by_cases here : needle <+: byte :: rest
      · rw [if_pos (List.isPrefixOf_iff_prefix.mpr here)]
        constructor
        · rintro ⟨rfl⟩
          exact ⟨Nat.zero_le _, here, fun _ impossible => absurd impossible (Nat.not_lt_zero _)⟩
        · rintro ⟨-, -, least⟩
          rcases offset with _ | offset
          · rfl
          · exact absurd here (least 0 (Nat.succ_pos _))
      · rw [if_neg (fun found => here (List.isPrefixOf_iff_prefix.mp found))]
        rcases offset with _ | offset
        · simp [here]
        · simp only [Option.map_eq_some_iff, Nat.add_right_cancel_iff, exists_eq_right, ih,
            List.length_cons, List.drop_succ_cons, Nat.add_le_add_iff_right]
          refine and_congr_right fun _ => and_congr_right fun _ => ⟨?_, ?_⟩
          · rintro least (_ | earlier) before
            · exact here
            · exact least earlier (by omega)
          · exact fun least earlier before => least (earlier + 1) (by omega)

theorem strstr_eq_none_iff {text needle : Bytes} :
    strstr text needle = none ↔ ¬needle <:+: text := by
  induction text with
  | nil => cases needle <;> simp [strstr]
  | cons byte rest ih =>
      rw [strstr, List.infix_cons_iff]
      by_cases here : needle <+: byte :: rest
      · simp [here, List.isPrefixOf_iff_prefix.mpr here]
      · rw [if_neg (fun found => here (List.isPrefixOf_iff_prefix.mp found))]
        simp [here, ih]

theorem strstr_isSome_iff {text needle : Bytes} :
    (strstr text needle).isSome ↔ needle <:+: text := by
  rw [← not_iff_not, Bool.not_eq_true, Option.isSome_eq_false_iff, Option.isNone_iff_eq_none,
    strstr_eq_none_iff]

theorem strstr_add_length_le {text needle : Bytes} {offset : ℕ}
    (found : strstr text needle = some offset) : offset + needle.length ≤ text.length := by
  rcases strstr_eq_some_iff.mp found with ⟨bound, here, -⟩
  have := here.length_le
  rw [List.length_drop] at this
  omega

theorem strstr_append {text needle : Bytes} {offset : ℕ} (more : Bytes)
    (found : strstr text needle = some offset) :
    strstr (text ++ more) needle = some offset := by
  have fits := strstr_add_length_le found
  rcases strstr_eq_some_iff.mp found with ⟨bound, here, least⟩
  refine strstr_eq_some_iff.mpr ⟨by simp; omega, ?_, ?_⟩
  · rw [List.drop_append_of_le_length bound]
    exact here.trans (List.prefix_append _ _)
  · intro earlier before occurs
    apply least earlier before
    rw [List.drop_append_of_le_length (by omega)] at occurs
    exact List.prefix_of_prefix_length_le occurs (List.prefix_append _ _)
      (by rw [List.length_drop]; omega)

theorem strstr_take {text needle : Bytes} {offset length : ℕ}
    (found : strstr text needle = some offset) (covers : offset + needle.length ≤ length) :
    strstr (text.take length) needle = some offset := by
  have fits := strstr_add_length_le found
  rcases strstr_eq_some_iff.mp found with ⟨bound, here, least⟩
  refine strstr_eq_some_iff.mpr ⟨by rw [List.length_take]; omega, ?_, ?_⟩
  · rw [List.drop_take]
    exact List.prefix_take_iff.mpr ⟨here, by omega⟩
  · intro earlier before occurs
    apply least earlier before
    rw [List.drop_take] at occurs
    exact occurs.trans (List.take_prefix _ _)

theorem strstr_take_eq_none {text needle : Bytes} {length : ℕ}
    (absent : strstr text needle = none) : strstr (text.take length) needle = none := by
  rw [strstr_eq_none_iff] at absent ⊢
  exact fun occurs => absent (occurs.trans (List.take_prefix _ _).isInfix)

theorem strcasestr_take {text needle : Bytes} {offset length : ℕ}
    (found : strcasestr text needle = some offset) (covers : offset + needle.length ≤ length) :
    strcasestr (text.take length) needle = some offset := by
  rw [strcasestr, List.map_take]
  exact strstr_take found (by simpa using covers)

theorem strcasestr_take_eq_none {text needle : Bytes} {length : ℕ}
    (absent : strcasestr text needle = none) : strcasestr (text.take length) needle = none := by
  rw [strcasestr, List.map_take]
  exact strstr_take_eq_none absent

theorem eq_append_of_strchr {text before after : Bytes} {byte : UInt8}
    (found : strchr text byte = some (before, after)) :
    text = before ++ byte :: after ∧ byte ∉ before := by
  rw [strchr] at found
  cases rest : text.dropWhile (· != byte) with
  | nil => simp [rest] at found
  | cons head tail =>
      simp only [rest, Option.some.injEq, Prod.mk.injEq] at found
      rcases found with ⟨rfl, rfl⟩
      have headIs : head = byte := by
        have stops := List.head_dropWhile_not (fun other => other != byte)
          (l := text) (by simp [rest])
        simpa [rest] using stops
      constructor
      · rw [← headIs, ← rest, headIs]
        exact (List.takeWhile_append_dropWhile ..).symm
      · intro member
        simpa using List.mem_takeWhile_imp member

/-! ## Tokens -/

/--
`strtok_r`: skips delimiters and cuts the token before the next delimiter. The
second component is what the save pointer points to afterwards.
-/
def strtok (delimiter : UInt8 → Bool) (text : Bytes) : Option (Bytes × Bytes) :=
  match text.dropWhile delimiter with
  | [] => none
  | start => some (start.takeWhile (!delimiter ·), (start.dropWhile (!delimiter ·)).tail)

/-- All tokens that repeated calls of `strtok_r` return. -/
def tokens (delimiter : UInt8 → Bool) (text : Bytes) : List Bytes :=
  (text.splitOnP delimiter).filter (!·.isEmpty)

theorem tokens_cons_delimiter {delimiter : UInt8 → Bool} {byte : UInt8}
    (isDelimiter : delimiter byte) (rest : Bytes) :
    tokens delimiter (byte :: rest) = tokens delimiter rest := by
  rw [tokens, List.splitOnP_cons_eq_if_modifyHead, if_pos isDelimiter]
  simp [tokens]

theorem tokens_dropWhile (delimiter : UInt8 → Bool) (text : Bytes) :
    tokens delimiter (text.dropWhile delimiter) = tokens delimiter text := by
  induction text with
  | nil => rfl
  | cons byte rest ih =>
      by_cases isDelimiter : delimiter byte
      · rw [List.dropWhile_cons_of_pos isDelimiter, ih, tokens_cons_delimiter isDelimiter]
      · rw [List.dropWhile_cons_of_neg isDelimiter]

theorem tokens_eq_singleton {delimiter : UInt8 → Bool} {text : Bytes}
    (free : ∀ byte ∈ text, delimiter byte = false) (nonempty : text ≠ []) :
    tokens delimiter text = [text] := by
  rw [tokens, List.splitOnP_eq_singleton free]
  simp [nonempty]

theorem tokens_append_delimiter {delimiter : UInt8 → Bool} {token : Bytes} {byte : UInt8}
    (free : ∀ other ∈ token, delimiter other = false) (nonempty : token ≠ [])
    (isDelimiter : delimiter byte) (rest : Bytes) :
    tokens delimiter (token ++ byte :: rest) = token :: tokens delimiter rest := by
  rw [tokens, List.splitOnP_append_cons_of_forall_mem free byte isDelimiter]
  simp [tokens, nonempty]

/-- `tokens` unfolds along the calls of `strtok_r`. -/
theorem tokens_eq_strtok (delimiter : UInt8 → Bool) (text : Bytes) :
    tokens delimiter text =
      match strtok delimiter text with
      | none => []
      | some (token, rest) => token :: tokens delimiter rest := by
  rw [← tokens_dropWhile, strtok]
  cases start : text.dropWhile delimiter with
  | nil => rfl
  | cons byte rest =>
      have starts : delimiter byte = false := by
        have stops := List.head_dropWhile_not delimiter (l := text) (by simp [start])
        simpa [start] using stops
      have nonempty : (byte :: rest).takeWhile (!delimiter ·) ≠ [] := by
        simp [starts]
      have free : ∀ other ∈ (byte :: rest).takeWhile (!delimiter ·), delimiter other = false := by
        intro other member
        simpa using List.mem_takeWhile_imp member
      have split := List.takeWhile_append_dropWhile (p := (!delimiter ·)) (l := byte :: rest)
      change tokens delimiter (byte :: rest) = (byte :: rest).takeWhile (!delimiter ·) ::
        tokens delimiter ((byte :: rest).dropWhile (!delimiter ·)).tail
      cases after : (byte :: rest).dropWhile (!delimiter ·) with
      | nil =>
          rw [after, List.append_nil] at split
          rw [split] at free nonempty ⊢
          rw [tokens_eq_singleton free nonempty]
          rfl
      | cons stop remaining =>
          have stopDelimits : delimiter stop := by
            have stops := List.head_dropWhile_not (!delimiter ·)
              (l := byte :: rest) (by simp [after])
            simpa [after] using stops
          rw [after] at split
          conv_lhs => rw [← split]
          exact tokens_append_delimiter free nonempty stopDelimits remaining

theorem splitOnP_eq_cons (delimiter : UInt8 → Bool) (text : Bytes) :
    ∃ pieces, text.splitOnP delimiter = text.takeWhile (!delimiter ·) :: pieces := by
  induction text with
  | nil => exact ⟨[], rfl⟩
  | cons byte rest ih =>
      rw [List.splitOnP_cons_eq_if_modifyHead]
      by_cases isDelimiter : delimiter byte
      · simp [isDelimiter]
      · rcases ih with ⟨pieces, split⟩
        exact ⟨pieces, by simp [isDelimiter, split]⟩

theorem mem_splitOnP {delimiter : UInt8 → Bool} {text piece : Bytes}
    (member : piece ∈ text.splitOnP delimiter) :
    piece <:+: text ∧ ∀ byte ∈ piece, delimiter byte = false := by
  induction text generalizing piece with
  | nil =>
      simp only [List.splitOnP_nil, List.mem_singleton] at member
      simp [member]
  | cons byte rest ih =>
      rw [List.splitOnP_cons_eq_if_modifyHead] at member
      by_cases isDelimiter : delimiter byte
      · rw [if_pos isDelimiter, List.mem_cons] at member
        rcases member with rfl | member
        · simp
        · exact ⟨(ih member).1.trans (List.suffix_cons byte rest).isInfix, (ih member).2⟩
      · rcases splitOnP_eq_cons delimiter rest with ⟨pieces, split⟩
        rw [if_neg isDelimiter, split, List.modifyHead_cons, List.mem_cons] at member
        rcases member with rfl | member
        · have free : ∀ other ∈ rest.takeWhile (!delimiter ·), delimiter other = false := by
            intro other inside
            simpa using List.mem_takeWhile_imp inside
          refine ⟨?_, ?_⟩
          · exact (List.cons_prefix_cons.mpr ⟨rfl, List.takeWhile_prefix _⟩).isInfix
          · simpa [isDelimiter] using free
        · have inRest := ih (by rw [split]; exact List.mem_cons_of_mem _ member)
          exact ⟨inRest.1.trans (List.suffix_cons byte rest).isInfix, inRest.2⟩

/-- Tokens are nonempty parts of the text that hold no delimiter. -/
theorem mem_tokens {delimiter : UInt8 → Bool} {text token : Bytes}
    (member : token ∈ tokens delimiter text) :
    token <:+: text ∧ token ≠ [] ∧ ∀ byte ∈ token, delimiter byte = false := by
  rcases List.mem_filter.mp member with ⟨piece, nonempty⟩
  exact ⟨(mem_splitOnP piece).1, by simpa using nonempty, (mem_splitOnP piece).2⟩

/-! ## Trimming, numbers and formatted output -/

/-- The text between the leading and the trailing white space. -/
def trim (text : Bytes) : Bytes := (text.dropWhile isspace).rdropWhile isspace

theorem mem_of_mem_trim {text : Bytes} {byte : UInt8} (member : byte ∈ trim text) :
    byte ∈ text :=
  (List.dropWhile_suffix _).subset ((List.rdropWhile_prefix _ _).subset member)

/-- The number a run of decimal digits denotes. -/
def decimalValue (digits : Bytes) : ℕ :=
  digits.foldl (fun value digit => 10 * value + (digit.toNat - 48)) 0

/-- The decimal number after an optional sign. -/
def signedValue (text : Bytes) : ℤ :=
  match text with
  | [] => 0
  | first :: rest =>
      if first = ch '-' then -(decimalValue (rest.takeWhile isdigit) : ℤ)
      else if first = ch '+' then decimalValue (rest.takeWhile isdigit)
      else decimalValue ((first :: rest).takeWhile isdigit)

/-- The integer a text denotes: white space, an optional sign and decimal digits, as `strtol`. -/
def scanInt (text : Bytes) : ℤ := signedValue (text.dropWhile isspace)

/-- `strtol` in base ten: the denoted integer, held within a 64-bit `long`. -/
def strtol (text : Bytes) : ℤ := max (-2 ^ 63) (min (2 ^ 63 - 1) (scanInt text))

/-- The conversion of an integer to a 32-bit `int`. -/
def toInt (value : ℤ) : ℤ := value.bmod (2 ^ 32)

/-- `atoi`, the `int` conversion of `strtol`. -/
def atoi (text : Bytes) : ℤ := toInt (strtol text)

/-- The output of the conversion `%d`. -/
def decimal (value : ℤ) : Bytes := bytes (toString value)

/-- What `snprintf` leaves in a buffer of `size` bytes, without the terminator. -/
def snprintf (size : ℕ) (text : Bytes) : Bytes := text.take (size - 1)

/-- `strncat` with the bound that fills a buffer of `size` bytes at most. -/
def strncat (size : ℕ) (text more : Bytes) : Bytes := text ++ more.take (size - text.length - 1)

/-- Appending to a buffer that was filled by `snprintf` cuts the joined text. -/
theorem strncat_snprintf (size : ℕ) (text more : Bytes) :
    strncat size (snprintf size text) more = snprintf size (text ++ more) := by
  rw [strncat, snprintf, snprintf, List.take_append, List.append_cancel_left_eq,
    List.length_take]
  congr 1
  omega

theorem toInt_eq_self {value : ℤ} (low : -2 ^ 31 ≤ value) (high : value < 2 ^ 31) :
    toInt value = value := by
  rw [toInt, Int.bmod_eq_of_le] <;> omega

/-- A count below 2^31 is held exactly. -/
theorem toInt_natCast {count : ℕ} (small : count < 2 ^ 31) : toInt count = count :=
  toInt_eq_self (by omega) (by omega)

/-- A value just above the range of `int` wraps once. -/
theorem toInt_eq_sub {value : ℤ} (low : 2 ^ 31 ≤ value) (high : value < 2 ^ 32 + 2 ^ 31) :
    toInt value = value - 2 ^ 32 := by
  rw [toInt, Int.bmod_def]
  split_ifs <;> omega

theorem toInt_bounds (value : ℤ) : -2 ^ 31 ≤ toInt value ∧ toInt value < 2 ^ 31 := by
  have low := Int.le_bmod (x := value) (m := 2 ^ 32) (by omega)
  have high := Int.bmod_lt (x := value) (m := 2 ^ 32) (by omega)
  rw [toInt]
  omega

theorem atoi_bounds (text : Bytes) : -2 ^ 31 ≤ atoi text ∧ atoi text < 2 ^ 31 :=
  toInt_bounds _

theorem atoi_eq_scanInt {text : Bytes} (low : -2 ^ 31 ≤ scanInt text)
    (high : scanInt text < 2 ^ 31) : atoi text = scanInt text := by
  have kept : strtol text = scanInt text := by
    rw [strtol, min_eq_right (by omega), max_eq_right (by omega)]
  rw [atoi, kept, toInt_eq_self low high]

theorem scanInt_append_space {blank : Bytes} (isBlank : ∀ byte ∈ blank, isspace byte)
    (text : Bytes) : scanInt (blank ++ text) = scanInt text := by
  rw [scanInt, scanInt, List.dropWhile_append_of_pos isBlank]

/-- The digits of `%d` for a number that is not negative. -/
def digits (value : ℕ) : Bytes := (Nat.toDigits 10 value).map ch

theorem decimal_eq (value : ℤ) :
    decimal value = if 0 ≤ value then digits value.toNat else ch '-' :: digits (-value).toNat := by
  rw [decimal, bytes, Int.toString_eq_repr, Int.repr_eq_if]
  split_ifs <;> simp [digits, Nat.toList_repr]

theorem isdigit_of_mem_digits {value : ℕ} {byte : UInt8} (member : byte ∈ digits value) :
    isdigit byte := by
  rcases List.mem_map.mp member with ⟨digit, isDigit, rfl⟩
  have range := Nat.isDigit_of_mem_toDigits (by omega) (by omega) isDigit
  simp only [Char.isDigit, Bool.and_eq_true, decide_eq_true_eq, ge_iff_le, UInt32.le_iff_toNat_le]
    at range
  have small : digit.toNat % 256 = digit.toNat := Nat.mod_eq_of_lt (by
    have := range.2
    change digit.toNat ≤ 57 at this
    omega)
  simp only [isdigit, ch, Bool.and_eq_true, decide_eq_true_eq, UInt8.le_iff_toNat_le,
    UInt8.toNat_ofNat', small]
  exact range

/-- Printing a number and reading the digits back gives the number. -/
theorem decimalValue_digits (value : ℕ) : decimalValue (digits value) = value := by
  have sameValue : ∀ (characters : List Char) (start : ℕ),
      (∀ character ∈ characters, character.isDigit) →
      (characters.map ch).foldl (fun value digit => 10 * value + (digit.toNat - 48)) start =
        Nat.ofDigitChars 10 characters start := by
    intro characters
    induction characters with
    | nil => exact fun _ _ => rfl
    | cons character characters ih =>
        intro start areDigits
        have range := areDigits character List.mem_cons_self
        simp only [Char.isDigit, Bool.and_eq_true, decide_eq_true_eq, ge_iff_le,
          UInt32.le_iff_toNat_le] at range
        change 48 ≤ character.toNat ∧ character.toNat ≤ 57 at range
        have kept : (ch character).toNat = character.toNat := by
          rw [ch, UInt8.toNat_ofNat_of_lt' (by change character.toNat < 256; omega)]
        rw [List.map_cons, List.foldl_cons, kept, Nat.ofDigitChars_cons,
          ih _ fun other member => areDigits other (List.mem_cons_of_mem _ member)]
        rfl
  rw [decimalValue, digits, sameValue _ _ fun character member =>
    Nat.isDigit_of_mem_toDigits (by omega) (by omega) member]
  exact Nat.ofDigitChars_ten_toDigits

theorem digits_injective : Function.Injective digits :=
  Function.LeftInverse.injective decimalValue_digits

theorem decimal_eq_digits_iff {value : ℤ} {other : ℕ} :
    decimal value = digits other ↔ value = other := by
  rw [decimal_eq]
  split_ifs with positive
  · rw [digits_injective.eq_iff]
    omega
  · constructor
    · intro same
      have sign : ch '-' ∈ digits other := same ▸ List.mem_cons_self
      exact absurd (isdigit_of_mem_digits sign) (by decide)
    · omega

theorem isdigit_or_eq_of_mem_decimal {value : ℤ} {byte : UInt8} (member : byte ∈ decimal value) :
    isdigit byte ∨ byte = ch '-' := by
  rw [decimal_eq] at member
  split_ifs at member
  · exact Or.inl (isdigit_of_mem_digits member)
  · rcases List.mem_cons.mp member with sign | member
    · exact Or.inr sign
    · exact Or.inl (isdigit_of_mem_digits member)

theorem length_decimal_le_of_natAbs_lt {value : ℤ} (small : value.natAbs < 10 ^ 10) :
    (decimal value).length ≤ 11 := by
  have ten : ∀ magnitude < 10 ^ 10, (digits magnitude).length ≤ 10 := by
    intro magnitude small
    rw [digits, List.length_map]
    exact (Nat.length_toDigits_le_iff (by omega) (by omega)).mpr small
  rw [decimal_eq]
  split_ifs
  · have := ten value.toNat (by omega)
    omega
  · have := ten (-value).toNat (by omega)
    rw [List.length_cons]
    omega

theorem length_decimal_le {value : ℤ} (low : -2 ^ 31 ≤ value) (high : value < 2 ^ 31) :
    (decimal value).length ≤ 11 :=
  length_decimal_le_of_natAbs_lt (by omega)

theorem signedValue_append {text rest : Bytes} (nonempty : text ≠ [])
    (stops : ∀ byte ∈ rest.head?, isdigit byte = false) :
    signedValue (text ++ rest) = signedValue text := by
  have stop : ∀ digits : Bytes,
      (digits ++ rest).takeWhile isdigit = digits.takeWhile isdigit := by
    intro digits
    induction digits with
    | nil =>
        cases rest with
        | nil => rfl
        | cons byte rest => simp [stops byte (by simp)]
    | cons digit digits ih =>
        by_cases digital : isdigit digit <;> simp [digital, ih]
  cases text with
  | nil => exact absurd rfl nonempty
  | cons first text =>
      simp only [List.cons_append, signedValue]
      rw [stop text, ← List.cons_append, stop (first :: text)]

/--
A text that is not blank denotes the same number whatever follows it, as long
as no digit follows directly.
-/
theorem scanInt_append {text rest : Bytes} (visible : ∃ byte ∈ text, isspace byte = false)
    (stops : ∀ byte ∈ rest.head?, isdigit byte = false) :
    scanInt (text ++ rest) = scanInt text := by
  have nonempty : text.dropWhile isspace ≠ [] := by
    rcases visible with ⟨byte, member, notSpace⟩
    intro nil
    rw [List.dropWhile_eq_nil_iff] at nil
    simp [nil byte member] at notSpace
  rw [scanInt, scanInt, List.dropWhile_append, if_neg (by simpa using nonempty)]
  exact signedValue_append nonempty stops

theorem isspace_eq_false_of_isdigit {byte : UInt8} (digital : isdigit byte) :
    isspace byte = false := by
  simp only [isdigit, Bool.and_eq_true, decide_eq_true_eq, UInt8.le_iff_toNat_le] at digital
  have notBlank : byte ≠ 32 := by
    rintro rfl
    exact absurd digital.1 (by decide)
  have above : ¬byte ≤ 13 := by
    rw [UInt8.le_iff_toNat_le]
    have := digital.1
    change 48 ≤ byte.toNat at this
    change ¬byte.toNat ≤ 13
    omega
  simp [isspace, notBlank, above]

theorem signedValue_digits {digits : Bytes} (isDigits : ∀ byte ∈ digits, isdigit byte) :
    signedValue digits = decimalValue digits := by
  cases digits with
  | nil => rfl
  | cons first digits =>
      have digital := isDigits first List.mem_cons_self
      have noMinus : first ≠ ch '-' := by
        rintro rfl
        exact absurd digital (by decide)
      have noPlus : first ≠ ch '+' := by
        rintro rfl
        exact absurd digital (by decide)
      rw [signedValue, if_neg noMinus, if_neg noPlus, List.takeWhile_eq_self_iff.mpr isDigits]

theorem scanInt_digits {blank digits rest : Bytes} (isBlank : ∀ byte ∈ blank, isspace byte)
    (nonempty : digits ≠ []) (isDigits : ∀ byte ∈ digits, isdigit byte)
    (stops : ∀ byte ∈ rest.head?, isdigit byte = false) :
    scanInt (blank ++ (digits ++ rest)) = decimalValue digits := by
  have visible : (digits ++ rest).dropWhile isspace = digits ++ rest := by
    cases digits with
    | nil => exact absurd rfl nonempty
    | cons first digits =>
        have digital := isDigits first List.mem_cons_self
        rw [List.cons_append, List.dropWhile_cons_of_neg]
        simp [isspace_eq_false_of_isdigit digital]
  rw [scanInt_append_space isBlank, scanInt, visible, signedValue_append nonempty stops,
    signedValue_digits isDigits]

theorem isdigit_eq_false_of_isspace {byte : UInt8} (space : isspace byte) :
    isdigit byte = false := by
  by_contra digital
  rw [Bool.not_eq_false] at digital
  rw [isspace_eq_false_of_isdigit digital] at space
  exact absurd space (by decide)

theorem scanInt_trim (text : Bytes) : scanInt (trim text) = scanInt text := by
  rw [scanInt, scanInt, trim]
  generalize visible : text.dropWhile isspace = start
  have split : start.rdropWhile isspace ++ start.rtakeWhile isspace = start :=
    List.rdropWhile_append_rtakeWhile ..
  cases start with
  | nil => rfl
  | cons first rest =>
      have shown : isspace first = false := by
        have stops := List.head_dropWhile_not isspace (l := text) (by simp [visible])
        simpa [visible] using stops
      have nonempty : (first :: rest).rdropWhile isspace ≠ [] := by
        intro nil
        rw [List.rdropWhile_eq_nil_iff] at nil
        simp [nil first List.mem_cons_self] at shown
      have kept : ((first :: rest).rdropWhile isspace).dropWhile isspace =
          (first :: rest).rdropWhile isspace := by
        cases trimmed : (first :: rest).rdropWhile isspace with
        | nil => exact absurd trimmed nonempty
        | cons head tail =>
            rw [trimmed, List.cons_append, List.cons.injEq] at split
            rw [List.dropWhile_cons_of_neg]
            simp [split.1, shown]
      rw [kept]
      conv_rhs => rw [← split]
      refine (signedValue_append nonempty ?_).symm
      intro byte isFirst
      exact isdigit_eq_false_of_isspace
        (List.mem_rtakeWhile_imp (List.mem_of_mem_head? isFirst))

/-! ## Lines -/

/-- Lines, each ended by a line feed. -/
def unlines (lines : List Bytes) : Bytes := lines.flatMap (· ++ bytes "\n")

@[simp]
theorem unlines_nil : unlines [] = [] := rfl

@[simp]
theorem unlines_cons (line : Bytes) (lines : List Bytes) :
    unlines (line :: lines) = line ++ ch '\n' :: unlines lines := by
  simp [unlines, bytes]

@[simp]
theorem unlines_append (first second : List Bytes) :
    unlines (first ++ second) = unlines first ++ unlines second := by
  simp [unlines]

/-- Parts without line feeds can be read back. -/
theorem unlines_inj {first second : List Bytes} (firstClear : ∀ line ∈ first, ch '\n' ∉ line)
    (secondClear : ∀ line ∈ second, ch '\n' ∉ line) (same : unlines first = unlines second) :
    first = second := by
  induction first generalizing second with
  | nil =>
      cases second with
      | nil => rfl
      | cons other second => simp [unlines, bytes] at same
  | cons line first ih =>
      cases second with
      | nil => simp [unlines, bytes] at same
      | cons other second =>
          rw [unlines_cons, unlines_cons] at same
          rcases append_cons_unique (firstClear line (List.mem_cons_self ..))
            (secondClear other (List.mem_cons_self ..)) same with ⟨rfl, rest⟩
          rw [ih (fun line isLine => firstClear line (List.mem_cons_of_mem _ isLine))
            (fun line isLine => secondClear line (List.mem_cons_of_mem _ isLine)) rest]

/-- The line feeds of a list of parts are those that end them and those inside. -/
theorem count_unlines (lines : List Bytes) :
    (unlines lines).count (ch '\n') =
      lines.length + (lines.map (List.count (ch '\n'))).sum := by
  induction lines with
  | nil => rfl
  | cons line lines ih =>
      rw [unlines_cons, List.count_append, List.count_cons_self, ih, List.length_cons,
        List.map_cons, List.sum_cons]
      omega

/-- Induction on the lines of a text. -/
theorem line_induction {motive : Bytes → Prop} (last : ∀ line, ch '\n' ∉ line → motive line)
    (more : ∀ line rest, ch '\n' ∉ line → motive rest → motive (line ++ ch '\n' :: rest))
    (text : Bytes) : motive text := by
  induction length : text.length using Nat.strong_induction_on generalizing text with
  | _ count ih =>
      by_cases inside : ch '\n' ∈ text
      · rcases List.eq_append_cons_of_mem inside with ⟨line, rest, rfl, noFeed⟩
        refine more line rest noFeed (ih rest.length ?_ rest rfl)
        rw [← length, List.length_append, List.length_cons]
        omega
      · exact last text inside

end CString
