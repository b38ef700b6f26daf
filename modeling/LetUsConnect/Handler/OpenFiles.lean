import LetUsConnect.Connection
import LetUsConnect.Handler.ResponseHeads

/-!
# The files of a request

A request has at most one file open at a time, and every path of the handler
closes the file it has opened.
-/

namespace LetUsConnect

open CString

/--
With `held` open, these actions open a file only when none is open, close no file
but their own, and leave none open.
-/
def GivesBack (held : Option ℕ) : List Action → Prop
  | [] => held = none
  | .openFile _ opened :: rest => held = none ∧ GivesBack opened rest
  | .closeFile fileFd :: rest => held = some fileFd ∧ GivesBack none rest
  | _ :: rest => GivesBack held rest

section GivesBack

variable {env : Environment} {request : HTTPRequest} {uri : Bytes}

theorem givesBack_sendError (code : ℕ) : GivesBack none (sendError code) := by
  simp [sendError, sendResponseHead, GivesBack]

theorem givesBack_refuse (code : ℕ) : GivesBack none (refuse env request code) := by
  simp [refuse, sendError, sendResponseHead, GivesBack]

theorem givesBack_handlePost (declared : (request.header "content-length").isSome) :
    GivesBack none (handlePost env request uri) := by
  rcases Option.isSome_iff_exists.mp declared with ⟨value, found⟩
  simp only [handlePost, found, storeBody, sendCreated_eq]
  cases opened : env.openFile postDataPath <;> simp [GivesBack]

theorem givesBack_handleFile (isGet : Bool) :
    GivesBack none (handleFile env request isGet uri) := by
  rw [handleFile]
  cases resolvePath env uri with
  | none => exact givesBack_refuse 404
  | some found =>
      refine ⟨rfl, ?_⟩
      cases env.openFile found.1 with
      | none => exact givesBack_refuse 403
      | some fileFd => cases isGet <;> simp [answerOpened, serveFile, sendResponseHead, GivesBack]

/-- Every path of the handler gives back what it opens. -/
theorem givesBack_handleFilesystemRequest (env : Environment) (request : HTTPRequest) :
    GivesBack none (handleFilesystemRequest env request) := by
  rcases handleFilesystemRequest_cases env request with
    ⟨uri, stores, handled⟩ | ⟨uri, asks, handled⟩ | ⟨code, used, handled⟩
  · rw [handled]
    exact givesBack_handlePost stores.declared
  · rw [handled]
    exact givesBack_handleFile _
  · rw [handled]
    exact givesBack_refuse code

theorem givesBack_dispatch (routes : Routes) (env : Environment) (request : HTTPRequest) :
    GivesBack none (dispatch routes.dictionary env request) := by
  rw [routes.dispatch_eq]
  split_ifs
  · exact givesBack_handleFilesystemRequest env request
  · exact givesBack_sendError 404

end GivesBack

end LetUsConnect
