import LetUsConnect.Handler.ResponseHeads

/-!
# The file of POST bodies

What the handler appends to `post_data.txt`.
-/

namespace LetUsConnect

open CString

/-- The bytes an action appends to `post_data.txt`, the only file that is written. -/
def Action.appends : Action → Bytes
  | .write _ text written => text.take (written.getD 0)
  | _ => []

/-- What a list of actions appends to `post_data.txt`. -/
def appended (actions : List Action) : Bytes := actions.flatMap Action.appends

section Appended

variable {env : Environment} {request : HTTPRequest} {uri : Bytes}

theorem appended_handlePost (declared : (request.header "content-length").isSome) :
    appended (handlePost env request uri) =
      if (env.openFile postDataPath).isSome then
        (request.data.getD []).take ((env.write 0).getD 0) ++
          (bytes "\n").take ((env.write 1).getD 0)
      else [] := by
  rcases Option.isSome_iff_exists.mp declared with ⟨value, found⟩
  cases opened : env.openFile postDataPath with
  | none => simp [handlePost, found, storeBody, opened, sendCreated_eq, appended, Action.appends]
  | some fileFd =>
      simp [handlePost, found, storeBody, opened, sendCreated_eq, appended, Action.appends]

end Appended

end LetUsConnect
