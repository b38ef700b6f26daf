import LetUsConnect.Parser

/-!
# The fields of a form

A urlencoded body as a browser writes it, and what the parser makes of its fields.
The dictionary of the body holds the whole text under `data`, which is inserted
first. A field of that name is therefore never seen; every other field is.
-/

namespace LetUsConnect

open CString HTTPRequest

/-- A field as it is written: `name=value`. -/
structure FormField where
  name : Bytes
  value : Bytes
  nonempty : name ≠ []
  nameClean : ∀ byte ∈ name, byte ≠ ch '=' ∧ byte ≠ ch '&' ∧ byte ≠ 0
  valueClean : ∀ byte ∈ value, byte ≠ ch '&' ∧ byte ≠ 0

/-- The fields of a form, each of its own name. -/
structure FormBody where
  fields : List FormField
  distinct : (fields.map FormField.name).Nodup

/-- `name=value`. -/
def FormField.pair (field : FormField) : Bytes := field.name ++ ch '=' :: field.value

/-- The text of the body. -/
def FormBody.text (form : FormBody) : Bytes := [ch '&'].intercalate (form.fields.map FormField.pair)

namespace FormField

variable (field : FormField)

theorem pair_ne_nil : field.pair ≠ [] := by
  simp [pair]

theorem pair_clean : ∀ byte ∈ field.pair, isAmpersand byte = false := by
  intro byte member
  simp only [pair, List.mem_append, List.mem_cons] at member
  rw [isAmpersand, beq_eq_false_iff_ne]
  rcases member with inName | rfl | inValue
  · exact (field.nameClean byte inName).2.1
  · decide
  · exact (field.valueClean byte inValue).1

/-- The pair is cut at its first `=`, whatever the value holds. -/
theorem strchr_pair : strchr field.pair (ch '=') = some (field.name, field.value) := by
  apply strchr_append
  intro equals
  exact (field.nameClean _ equals).1 rfl

end FormField

/-- The tokens of the text are the pairs. -/
theorem tokens_intercalate (fields : List FormField) :
    tokens isAmpersand ([ch '&'].intercalate (fields.map FormField.pair)) =
      fields.map FormField.pair := by
  induction fields with
  | nil => rfl
  | cons field fields ih =>
      cases fields with
      | nil =>
          rw [List.map_singleton, List.intercalate_singleton]
          exact tokens_eq_singleton field.pair_clean field.pair_ne_nil
      | cons next fields =>
          simp only [List.map_cons] at ih ⊢
          rw [List.intercalate_cons_cons, List.append_assoc, List.singleton_append,
            tokens_append_delimiter field.pair_clean field.pair_ne_nil (by decide), ih]

/-- Every pair is inserted under its name. -/
theorem foldl_extractPair (fields : List FormField) (request : HTTPRequest) :
    ((fields.map FormField.pair).foldl extractPair request).body =
      (fields.map fun field => (field.name, field.value)).foldl
        (fun filled entry => filled.insertDict entry.1 entry.2) request.body := by
  induction fields generalizing request with
  | nil => rfl
  | cons field fields ih =>
      rw [List.map_cons, List.foldl_cons, ih, extractPair, field.strchr_pair]
      rfl

/-- A field is shorter than the text it is part of. -/
theorem length_value_lt (fields : List FormField) {field : FormField} (member : field ∈ fields) :
    field.value.length < ([ch '&'].intercalate (fields.map FormField.pair)).length := by
  induction fields with
  | nil => cases member
  | cons first fields ih =>
      have isPair : field.value.length < field.pair.length := by
        simp [FormField.pair]
        omega
      cases fields with
      | nil =>
          rw [List.mem_singleton.mp member] at isPair ⊢
          simpa using isPair
      | cons next fields =>
          simp only [List.map_cons] at ih ⊢
          rw [List.intercalate_cons_cons, List.length_append, List.length_append]
          rcases List.mem_cons.mp member with rfl | later
          · omega
          · have shorter := ih later
            omega

/-- The names are different, so each leads to one field. -/
theorem FormBody.find?_name (form : FormBody) {field : FormField} (member : field ∈ form.fields) :
    form.fields.find? (fun other => other.name = field.name) = some field := by
  cases found : form.fields.find? (fun other => other.name = field.name) with
  | none => simpa using List.find?_eq_none.mp found field member
  | some other =>
      have sameName : other.name = field.name := by simpa using List.find?_some found
      have isField := List.inj_on_of_nodup_map form.distinct (List.mem_of_find?_eq_some found)
        member sameName
      rw [isField]

section Requests

variable (form : FormBody) {requestString contentType : Bytes}
  (isBody : bodyPart requestString = form.text)
  (isType : (httpRequestConstructor requestString).header "content-type" = some contentType)
  (urlencoded : (strstr contentType (bytes "application/x-www-form-urlencoded")).isSome)

include isBody isType urlencoded

/-- The body dictionary holds the text and then the fields. -/
theorem searchDict_body (nonempty : form.fields ≠ []) (key : Bytes) :
    (httpRequestConstructor requestString).body.searchDict key =
      (if bytes "data" = key then some form.text else none).or
        ((form.fields.find? fun field => field.name = key).map FormField.value) := by
  rcases List.exists_mem_of_ne_nil _ nonempty with ⟨field, member⟩
  have longer := length_value_lt form.fields member
  have hasBody : bodyPart requestString ≠ [] := by
    rw [isBody]
    rintro empty
    rw [FormBody.text] at empty
    rw [empty, List.length_nil] at longer
    exact absurd longer (Nat.not_lt_zero _)
  rw [header, headerFields_eq_withoutBody] at isType
  rw [httpRequestConstructor_eq, if_neg hasBody, extractBody, isBody]
  simp only [isType, if_pos urlencoded]
  rw [FormBody.text, tokens_intercalate, foldl_extractPair, Dictionary.searchDict_foldl_insertDict,
    Dictionary.searchDict_insertDict, body_withoutBody, Dictionary.searchDict_constructor,
    Option.none_or, List.find?_map, Option.map_map]
  rfl

/-- Every field can be searched for exactly if none of them is called `data`. -/
theorem fields_retrievable_iff :
    (∀ field ∈ form.fields,
      (httpRequestConstructor requestString).body.searchDict field.name = some field.value) ↔
      bytes "data" ∉ form.fields.map FormField.name := by
  constructor
  · intro retrievable isName
    rcases List.mem_map.mp isName with ⟨field, member, name⟩
    have found := retrievable field member
    rw [searchDict_body form isBody isType urlencoded (List.ne_nil_of_mem member), if_pos name.symm,
      Option.some_or, Option.some.injEq] at found
    have longer := length_value_lt form.fields member
    rw [← found, FormBody.text] at longer
    exact absurd longer (lt_irrefl _)
  · intro noName field member
    have notData : bytes "data" ≠ field.name := by
      intro name
      exact noName (name ▸ List.mem_map_of_mem member)
    have found := form.find?_name member
    rw [searchDict_body form isBody isType urlencoded (List.ne_nil_of_mem member), if_neg notData,
      Option.none_or, found, Option.map_some]

end Requests

/-! ## Two requests -/

/-- A request for a form with one field of this name. -/
def formRequest (name : String) : Bytes :=
  bytes "POST / HTTP/1.1\r\nContent-Type: application/x-www-form-urlencoded\r\n\r\n" ++
    bytes name ++ bytes "=1"

/-- A field that is called `user`. -/
def userForm : FormBody where
  fields := [{
    name := bytes "user"
    value := bytes "1"
    nonempty := by decide
    nameClean := List.forall_iff_forall_mem.mp (by decide)
    valueClean := List.forall_iff_forall_mem.mp (by decide) }]
  distinct := by decide

/-- A field that is called `data`. -/
def dataForm : FormBody where
  fields := [{
    name := bytes "data"
    value := bytes "1"
    nonempty := by decide
    nameClean := List.forall_iff_forall_mem.mp (by decide)
    valueClean := List.forall_iff_forall_mem.mp (by decide) }]
  distinct := by decide

theorem userForm_retrievable :
    bodyPart (formRequest "user") = userForm.text ∧
      ∀ field ∈ userForm.fields,
        (httpRequestConstructor (formRequest "user")).body.searchDict field.name =
          some field.value := by
  have isBody : bodyPart (formRequest "user") = userForm.text := by decide +kernel
  have isType : (httpRequestConstructor (formRequest "user")).header "content-type" =
      some (bytes "application/x-www-form-urlencoded") := by decide +kernel
  exact ⟨isBody, (fields_retrievable_iff userForm isBody isType (by decide)).mpr (by decide)⟩

/-- The search for `data` returns the whole text of the body. -/
theorem dataForm_notRetrievable :
    bodyPart (formRequest "data") = dataForm.text ∧
      (httpRequestConstructor (formRequest "data")).header "content-type" =
        some (bytes "application/x-www-form-urlencoded") ∧
      (httpRequestConstructor (formRequest "data")).body.searchDict (bytes "data") =
        some (bytes "data=1") ∧
      ¬∀ field ∈ dataForm.fields,
        (httpRequestConstructor (formRequest "data")).body.searchDict field.name =
          some field.value := by
  have isBody : bodyPart (formRequest "data") = dataForm.text := by decide +kernel
  have isType : (httpRequestConstructor (formRequest "data")).header "content-type" =
      some (bytes "application/x-www-form-urlencoded") := by decide +kernel
  have found : (httpRequestConstructor (formRequest "data")).body.searchDict (bytes "data") =
      some (bytes "data=1") := by decide +kernel
  refine ⟨isBody, isType, found, ?_⟩
  intro retrievable
  have claimed := retrievable _ List.mem_cons_self
  exact absurd (found.symm.trans claimed) (by decide)

end LetUsConnect
