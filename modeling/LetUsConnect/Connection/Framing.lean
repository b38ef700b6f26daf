import LetUsConnect.Connection

/-!
# The two readings of the declared length

The worker looks for `Content-Length:` anywhere in the buffer; the parser looks
for the first header line of that name. The readings coincide when the text the
worker finds is the name of that line, its value is not blank and fits an `int`.
Every other agreement is one of two different numbers in the text that happen to
be equal.
-/

namespace LetUsConnect

open CString HTTPRequest

/-- The integer after the first `Content-Length:`, which the worker waits for. -/
def awaitedLength (text : Bytes) : Option ℤ :=
  (strcasestr text (bytes "Content-Length:")).map fun clStr => atoi (text.drop (clStr + 15))

/-- The worker dispatches once the header section and the awaited length are there. -/
theorem requestComplete_iff {text : Bytes} {readLength : ℕ} :
    requestComplete text readLength = true ↔
      ∃ headersEnd' : ℕ, strstr text headersEnd = some headersEnd' ∧
        ∀ length ∈ awaitedLength text, toInt (headersEnd' + 4 + length) ≤ readLength := by
  rw [requestComplete, awaitedLength]
  cases strstr text headersEnd with
  | none => simp
  | some headersEnd' => cases strcasestr text (bytes "Content-Length:") <;> simp

/-- The integer in the parsed `content-length` entry. -/
def declaredLength (text : Bytes) : Option ℤ :=
  ((httpRequestConstructor text).header "content-length").map scanInt

/-- Whether the name before the first colon of a line is `content-length`. -/
def isDeclaration (line : Bytes) : Bool :=
  match strchr line (ch ':') with
  | none => false
  | some (name, _) => (trim name).map tolower == bytes "content-length"

/-- The text after the first colon of a line. -/
def valueOf (line : Bytes) : Bytes :=
  match strchr line (ch ':') with
  | none => []
  | some (_, value) => value

/-- The first header line named `content-length`. -/
def declarationLine (text : Bytes) : Option Bytes :=
  (tokens isLineEnd (headersPart text)).find? isDeclaration

/--
The occurrence the worker finds ends at the first colon of `line`, and the line
has a value.
-/
structure IsNameOf (text line : Bytes) (clStr : ℕ) : Prop where
  place : ∃ name before after, strchr line (ch ':') = some (name, valueOf line) ∧
    text = before ++ (line ++ after) ∧ (∃ byte ∈ after.head?, isLineEnd byte) ∧
    clStr + 15 = before.length + name.length + 1
  hasValue : ∃ byte ∈ valueOf line, isspace byte = false

/-- When worker and parser read the same length from a text. -/
def FramingAgrees (text : Bytes) : Prop :=
  match strcasestr text (bytes "Content-Length:"), declarationLine text with
  | none, none => True
  | some clStr, some line =>
      (IsNameOf text line clStr ∧
          -2 ^ 31 ≤ scanInt (valueOf line) ∧ scanInt (valueOf line) < 2 ^ 31) ∨
        (¬IsNameOf text line clStr ∧
          atoi (text.drop (clStr + 15)) = scanInt (valueOf line))
  | _, _ => False

theorem header_contentLength (text : Bytes) :
    (httpRequestConstructor text).header "content-length" =
      (declarationLine text).map fun line => trim (valueOf line) := by
  have entry : ∀ line, (headerEntry line).any (fun entry => entry.1 = bytes "content-length") =
      isDeclaration line := by
    intro line
    cases colon : strchr line (ch ':') with
    | none => simp [headerEntry, isDeclaration, colon]
    | some parts =>
        by_cases unnamed : trim parts.1 = []
        · simp [headerEntry, isDeclaration, colon, unnamed, bytes]
        · simp [headerEntry, isDeclaration, colon, unnamed, Bool.beq_eq_decide_eq]
  have value : ∀ line, isDeclaration line = true →
      (headerEntry line).map Prod.snd = some (trim (valueOf line)) := by
    intro line declares
    cases colon : strchr line (ch ':') with
    | none => simp [isDeclaration, colon] at declares
    | some parts =>
        have named : trim parts.1 ≠ [] := by
          intro unnamed
          simp [isDeclaration, colon, unnamed, bytes] at declares
        simp [headerEntry, valueOf, colon, named]
  rw [header_httpRequestConstructor, headerEntries, List.find?_filterMap, declarationLine]
  simp only [entry]
  cases found : (tokens isLineEnd (headersPart text)).find? isDeclaration with
  | none => rfl
  | some line => exact value line (List.find?_some found)

theorem declaredLength_eq (text : Bytes) :
    declaredLength text = (declarationLine text).map fun line => scanInt (valueOf line) := by
  rw [declaredLength, header_contentLength, Option.map_map]
  cases declarationLine text with
  | none => rfl
  | some line => simp [scanInt_trim]

theorem IsNameOf.scanInt_drop {text line : Bytes} {clStr : ℕ} (isName : IsNameOf text line clStr) :
    scanInt (text.drop (clStr + 15)) = scanInt (valueOf line) := by
  rcases isName.place with ⟨name, before, after, colon, split, ⟨lineEnd, first, ends⟩,
    position⟩
  have lineEq := (eq_append_of_strchr colon).1
  have rest : text.drop (clStr + 15) = valueOf line ++ after := by
    have place : before.length + name.length + 1 = (before ++ (name ++ [ch ':'])).length := by
      simp [Nat.add_assoc]
    have whole : text = (before ++ (name ++ [ch ':'])) ++ (valueOf line ++ after) := by
      conv_lhs => rw [split, lineEq]
      simp
    rw [position, place, whole, List.drop_left]
  rw [rest]
  refine scanInt_append isName.hasValue ?_
  intro byte isFirst
  rw [first] at isFirst
  cases isFirst
  have isReturnOrFeed : lineEnd = 13 ∨ lineEnd = 10 := by simpa [isLineEnd] using ends
  rcases isReturnOrFeed with rfl | rfl <;> decide

/-- The condition under which framing and parsing agree is exact. -/
theorem awaitedLength_eq_declaredLength_iff (text : Bytes) :
    awaitedLength text = declaredLength text ↔ FramingAgrees text := by
  rw [awaitedLength, declaredLength_eq, FramingAgrees]
  cases strcasestr text (bytes "Content-Length:") with
  | none => cases declarationLine text <;> simp
  | some clStr =>
      cases declarationLine text with
      | none => simp
      | some line =>
          simp only [Option.map_some, Option.some.injEq]
          by_cases isName : IsNameOf text line clStr
          · have same := isName.scanInt_drop
            have bounds := atoi_bounds (text.drop (clStr + 15))
            simp only [isName, true_and, not_true_eq_false, false_and, or_false]
            constructor
            · rintro equal
              rw [equal] at bounds
              exact bounds
            · rintro ⟨low, high⟩
              rw [← same] at low high ⊢
              exact atoi_eq_scanInt low high
          · simp [isName]

/-- A request without a body whose `uri` contains the text the worker looks for. -/
def misleadingRequest : Bytes := bytes "GET /?Content-Length:5 HTTP/1.1\r\n\r\n"

/-- The worker waits for five bytes that no header declares. -/
theorem misleadingRequest_disagrees :
    ¬∀ text : Bytes, 0 ∉ text → headersEnd <:+: text →
      awaitedLength text = declaredLength text := by
  intro agrees
  have equal := agrees misleadingRequest (by decide) (by decide)
  exact absurd equal (by decide)

end LetUsConnect
