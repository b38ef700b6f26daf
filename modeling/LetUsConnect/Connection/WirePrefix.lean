import LetUsConnect.Connection
import LetUsConnect.Handler.ResponseHeads

/-!
# The bytes on the wire

The responses of one connection are a sequence of writing calls, each of which
makes system calls until its text is transferred or it gives up. `wire` is what
a list of system-call outcomes puts on the socket, so the lists that are cut
short show the wire at every earlier moment.

No caller looks at the result of a writing call. Whether a call that gave up is
followed by more bytes therefore depends on the outcomes alone: it is not exactly
when no system call made later takes any.
-/

namespace LetUsConnect

open CString

namespace Action

/-- The bytes an action is meant to put on the socket. -/
def intended : Action → Bytes
  | .sendHead buffer _ | .sendBody buffer _ => buffer
  | .sendFile content _ offset size => fileRange content offset.toNat size.toNat
  | _ => []

/-- The execution of an action with the outcomes of the system calls to come. -/
def transfer (calls : List SystemCall) : Action → Transfer
  | .sendHead buffer len | .sendBody buffer len => sendAll buffer len calls
  | .sendFile content _ offset size => LetUsConnect.sendFile content offset size calls
  | _ => ⟨[], .returned 0, calls⟩

end Action

/-- What a sequence of actions puts on the socket. -/
def wire : List Action → List SystemCall → Bytes
  | [], _ => []
  | action :: actions, calls =>
      let transfer := action.transfer calls
      if transfer.ended = .running then transfer.accepted
      else transfer.accepted ++ wire actions transfer.rest

/-- The outcomes of the system calls that a sequence of actions makes. -/
def callsMade : List Action → List SystemCall → List SystemCall
  | [], _ => []
  | action :: actions, calls =>
      let transfer := action.transfer calls
      calls.take (calls.length - transfer.rest.length) ++
        if transfer.ended = .running then [] else callsMade actions transfer.rest

/-- After a call that ended early no later call writes. -/
def StopsAfterGivingUp : List Action → List SystemCall → Prop
  | [], _ => True
  | action :: actions, calls =>
      let transfer := action.transfer calls
      transfer.ended ≠ .running →
        (transfer.accepted ≠ action.intended → wire actions transfer.rest = []) ∧
          StopsAfterGivingUp actions transfer.rest

/-- The actions for the requests dispatched on one connection, up to the one that closes it. -/
def responses (routes : Routes) : List (Environment × HTTPRequest) → List Action
  | [] => []
  | (env, request) :: exchanges =>
      dispatch routes.dictionary env request ++
        if keepAlive request then responses routes exchanges else []

/-- Once a system call has made its caller give up, no later one transfers bytes. -/
def QuietAfterGivingUp (calls : List SystemCall) : Prop :=
  calls.Pairwise fun earlier later => earlier.givesUp → later.carries = false

/-- Any file the handler answers a `GET` with is smaller than 2 GiB. -/
def FileFits (env : Environment) (request : HTTPRequest) : Prop :=
  ∀ uri path status, AsksForFile request uri → request.method = some (bytes "GET") →
    resolvePath env uri = some (path, status) → (env.openFile path).isSome → status.size < 2 ^ 31

/-- No file of 2 GiB or more is sent. -/
def FilesFit (routes : Routes) (exchanges : List (Environment × HTTPRequest)) : Prop :=
  ∀ exchange ∈ exchanges, routes.handles exchange.2 → FileFits exchange.1 exchange.2

/-! ## Sequences of writing calls -/

/-- Each action transfers its intended bytes unless it gives up. -/
def Sound (actions : List Action) : Prop :=
  ∀ action ∈ actions, ∀ calls, ∃ made,
    Transfers action.intended calls made (action.transfer calls)

theorem callsMade_cons {action : Action} {calls made : List SystemCall}
    (transfers : Transfers action.intended calls made (action.transfer calls))
    (actions : List Action) :
    callsMade (action :: actions) calls = made ++
      if (action.transfer calls).ended = .running then []
      else callsMade actions (action.transfer calls).rest := by
  have length := congrArg List.length transfers.split
  rw [List.length_append] at length
  have count : calls.length - (action.transfer calls).rest.length = made.length := by omega
  have taken : calls.take made.length = made := by
    conv_lhs => arg 2; rw [transfers.split]
    exact List.take_left
  simp only [callsMade, count, taken]

/-- Nothing is written exactly when no call that is made takes any bytes. -/
theorem wire_eq_nil_iff {actions : List Action} (sound : Sound actions)
    {calls : List SystemCall} :
    wire actions calls = [] ↔ ∀ call ∈ callsMade actions calls, call.carries = false := by
  induction actions generalizing calls with
  | nil => simp [wire, callsMade]
  | cons action actions ih =>
      rcases sound action List.mem_cons_self calls with ⟨made, transfers⟩
      have later := @ih (fun other member => sound other (List.mem_cons_of_mem _ member))
        (action.transfer calls).rest
      rw [callsMade_cons transfers, List.forall_mem_append, ← transfers.silent_iff]
      simp only [wire]
      split_ifs with running
      · simp
      · rw [List.append_eq_nil_iff, later]

/-- A call makes no system call after the one with which it gives up. -/
theorem Transfers.quiet {whole : Bytes} {calls made : List SystemCall} {transfer : Transfer}
    (transfers : Transfers whole calls made transfer) : QuietAfterGivingUp made := by
  have quiet : ∀ before : List SystemCall, (∀ call ∈ before, call.givesUp = false) →
      QuietAfterGivingUp before := by
    intro before goOn
    refine List.pairwise_of_forall_mem_list fun call member _ _ gaveUp => ?_
    exact absurd gaveUp (by simp [goOn call member])
  rcases transfers.outcome with ⟨goOn, -⟩ | ⟨before, last, rfl, goOn, -⟩
  · exact quiet made goOn
  · refine List.pairwise_append.mpr ⟨quiet before goOn, List.pairwise_singleton _ _, ?_⟩
    intro call member _ _ gaveUp
    exact absurd gaveUp (by simp [goOn call member])

/-- What a call that ended leaves to the later ones: nothing more, if it gave up. -/
theorem Transfers.quiet_append_iff {whole : Bytes} {calls made : List SystemCall}
    {transfer : Transfer} (transfers : Transfers whole calls made transfer)
    (ended : transfer.ended ≠ .running) (later : List SystemCall) :
    QuietAfterGivingUp (made ++ later) ↔
      (transfer.accepted ≠ whole → ∀ call ∈ later, call.carries = false) ∧
        QuietAfterGivingUp later := by
  have ownPart : QuietAfterGivingUp (made ++ later) ↔ QuietAfterGivingUp later ∧
      ∀ earlier ∈ made, ∀ call ∈ later, earlier.givesUp → call.carries = false :=
    List.pairwise_append.trans (and_iff_right transfers.quiet)
  rw [ownPart, and_comm]
  refine and_congr_left fun _ => ?_
  rcases transfers.outcome with ⟨goOn, complete⟩ | ⟨before, last, rfl, -, gaveUp, -, cut⟩
  · refine iff_of_true (fun earlier member _ _ gaveUp => ?_) fun cut => ?_
    · exact absurd gaveUp (by simp [goOn earlier member])
    · exact absurd (complete.resolve_left ended) cut
  · constructor
    · intro quiet _ call member
      exact quiet last (List.mem_append_right _ List.mem_cons_self) call member gaveUp
    · intro quiet _ _ call member _
      exact quiet cut call member

theorem stops_iff {actions : List Action} (sound : Sound actions) {calls : List SystemCall} :
    StopsAfterGivingUp actions calls ↔ QuietAfterGivingUp (callsMade actions calls) := by
  induction actions generalizing calls with
  | nil => exact iff_of_true trivial List.Pairwise.nil
  | cons action actions ih =>
      have restSound : Sound actions := fun other member =>
        sound other (List.mem_cons_of_mem _ member)
      rcases sound action List.mem_cons_self calls with ⟨made, transfers⟩
      rw [callsMade_cons transfers]
      simp only [StopsAfterGivingUp]
      split_ifs with running
      · rw [List.append_nil]
        exact iff_of_true (fun ended => absurd running ended) transfers.quiet
      · rw [transfers.quiet_append_iff running, ← wire_eq_nil_iff restSound, ← ih restSound]
        exact ⟨fun stops => stops running, fun stops _ => stops⟩

theorem wire_isPrefix {actions : List Action} (sound : Sound actions) {calls : List SystemCall}
    (stops : StopsAfterGivingUp actions calls) :
    wire actions calls <+: actions.flatMap Action.intended := by
  induction actions generalizing calls with
  | nil => exact List.nil_prefix
  | cons action actions ih =>
      rcases sound action List.mem_cons_self calls with ⟨made, transfers⟩
      have partial_ : (action.transfer calls).accepted <+:
          action.intended ++ actions.flatMap Action.intended :=
        transfers.isPrefix.trans (List.prefix_append _ _)
      simp only [wire, List.flatMap_cons]
      split_ifs with running
      · exact partial_
      · rcases stops running with ⟨nothing, later⟩
        by_cases whole : (action.transfer calls).accepted = action.intended
        · rw [whole]
          exact (List.prefix_append_right_inj _).mpr
            (ih (fun other member => sound other (List.mem_cons_of_mem _ member)) later)
        · rw [nothing whole, List.append_nil]
          exact partial_

/-! ## The calls of the responses -/

theorem sound_append {first second : List Action} :
    Sound (first ++ second) ↔ Sound first ∧ Sound second := by
  simp only [Sound, List.mem_append, or_imp, forall_and]

theorem sound_cons {action : Action} {actions : List Action} :
    Sound (action :: actions) ↔
      (∀ calls, ∃ made, Transfers action.intended calls made (action.transfer calls)) ∧
        Sound actions := by
  simp only [Sound, List.mem_cons, forall_eq_or_imp]

theorem sound_sendError {code : ℕ} (used : code ∈ errorCodes) : Sound (sendError code) := by
  rw [sendError_eq used, sound_cons, sound_cons]
  exact ⟨sendAll_transfers _, sendAll_transfers _, by simp [Sound]⟩

theorem sound_refuse (env : Environment) (request : HTTPRequest) {code : ℕ}
    (used : code ∈ errorCodes) : Sound (refuse env request code) := by
  rw [refuse, sound_append, sound_cons]
  exact ⟨sound_sendError used, fun _ => ⟨[], .complete rfl _⟩, by simp [Sound]⟩

theorem sound_handlePost (env : Environment) (request : HTTPRequest) (uri : Bytes) :
    Sound (handlePost env request uri) := by
  have quiet : ∀ action : Action, action.intended = [] →
      (∀ calls, action.transfer calls = ⟨[], .returned 0, calls⟩) →
      ∀ calls, ∃ made, Transfers action.intended calls made (action.transfer calls) := by
    intro action nothing trivially calls
    rw [trivially]
    exact ⟨[], .complete nothing _⟩
  have stored : ∀ body, Sound (storeBody env body) := by
    intro body
    rw [storeBody, sound_cons]
    refine ⟨quiet _ rfl fun _ => rfl, ?_⟩
    split
    · simp [Sound]
    · simp only [sound_cons]
      exact ⟨quiet _ rfl fun _ => rfl, quiet _ rfl fun _ => rfl, quiet _ rfl fun _ => rfl,
        by simp [Sound]⟩
  rw [handlePost]
  split
  · exact sound_refuse env request (by decide)
  · simp only [sound_append, sound_cons, sendCreated_eq]
    exact ⟨⟨⟨⟨quiet _ rfl fun _ => rfl, quiet _ rfl fun _ => rfl, by simp [Sound]⟩, stored _⟩,
      sendAll_transfers _, sendAll_transfers _, by simp [Sound]⟩, quiet _ rfl fun _ => rfl,
      by simp [Sound]⟩

theorem sound_handleFile {env : Environment} {request : HTTPRequest} {uri : Bytes}
    {isGet : Bool} (fits : ∀ path status, isGet → resolvePath env uri = some (path, status) →
      (env.openFile path).isSome → status.size < 2 ^ 31) :
    Sound (handleFile env request isGet uri) := by
  rw [handleFile]
  split
  · exact sound_refuse env request (by decide)
  · next localPath status resolved =>
      rw [sound_cons]
      refine ⟨fun _ => ⟨[], .complete rfl _⟩, ?_⟩
      cases opened : env.openFile localPath with
      | none => exact sound_refuse env request (by decide)
      | some fileFd =>
          rw [answerOpened, serveFile_eq, sound_cons, sound_append, sound_cons, sound_cons]
          refine ⟨sendAll_transfers _, ?_, fun _ => ⟨[], .complete rfl _⟩,
            fun _ => ⟨[], .complete rfl _⟩,
            by simp [Sound]⟩
          cases isGet with
          | false => simp [Sound]
          | true =>
              rw [if_pos rfl, sound_cons]
              have small := fits localPath status rfl resolved (by rw [opened]; rfl)
              exact ⟨sendFile_transfers env.content small, by simp [Sound]⟩

theorem sound_dispatch (routes : Routes) {env : Environment} {request : HTTPRequest}
    (fits : routes.handles request → FileFits env request) :
    Sound (dispatch routes.dictionary env request) := by
  rw [routes.dispatch_eq]
  split_ifs with routed
  · rcases handleFilesystemRequest_cases env request with
      ⟨uri, stores, handled⟩ | ⟨uri, asks, handled⟩ | ⟨code, used, handled⟩
    · rw [handled]
      exact sound_handlePost env request uri
    · rw [handled]
      apply sound_handleFile
      intro path status isGet
      exact fits routed uri path status asks (of_decide_eq_true isGet)
    · rw [handled]
      exact sound_refuse env request (List.mem_cons_of_mem _ used)
  · exact sound_sendError (by decide)

theorem sound_responses (routes : Routes) {exchanges : List (Environment × HTTPRequest)}
    (fit : FilesFit routes exchanges) : Sound (responses routes exchanges) := by
  induction exchanges with
  | nil => simp [responses, Sound]
  | cons exchange exchanges ih =>
      rw [responses, sound_append]
      refine ⟨sound_dispatch routes (fit exchange List.mem_cons_self), ?_⟩
      split_ifs
      · exact ih fun other member => fit other (List.mem_cons_of_mem _ member)
      · simp [Sound]

/-- The requests that the tasks of a slot dispatch, each with the answers given to it. -/
def exchanges (arrivals : List Arrival) (outcomes : List TaskOutcome) :
    List (Environment × HTTPRequest) :=
  (arrivals.zip outcomes).filterMap fun task =>
    task.2.dispatched.map fun text => (task.1.env, httpRequestConstructor text)

/-- What the tasks of a slot write are the responses to what they dispatch. -/
theorem flatMap_actions_runTasks {routes : Routes} {conn : ClientConnection}
    {arrivals : List Arrival} {outcomes : List TaskOutcome}
    (ran : runTasks routes.dictionary conn arrivals = some outcomes) :
    outcomes.flatMap TaskOutcome.actions = responses routes (exchanges arrivals outcomes) := by
  induction arrivals generalizing conn outcomes with
  | nil =>
      cases ran
      rfl
  | cons arrival arrivals ih =>
      rw [runTasks] at ran
      split_ifs at ran with active
      rcases Option.bind_eq_some_iff.mp ran with ⟨outcome, first, rest⟩
      rcases Option.map_eq_some_iff.mp rest with ⟨later, laterRan, rfl⟩
      rcases threadTask_cases first with ⟨buffer, rfl⟩ | ⟨nothing, silent⟩
      · simp only [List.flatMap_cons, exchanges, List.zip_cons_cons, List.filterMap_cons,
          dispatched_answerRequest, Option.map_some, responses, actions_answerRequest,
          List.append_cancel_left_eq]
        split_ifs with kept
        · exact ih laterRan
        · have busyActive : ({ conn with isBusy := true } : ClientConnection).isActive := active
          have inactive : (answerRequest routes.dictionary arrival.env arrival.now
              { conn with isBusy := true } buffer).connection.isActive = false :=
            (isActive_answerRequest busyActive).trans ((Bool.not_eq_true _).mp kept)
          cases arrivals with
          | nil =>
              cases laterRan
              rfl
          | cons => simp [runTasks, inactive] at laterRan
      · have same : exchanges (arrival :: arrivals) (outcome :: later) =
            exchanges arrivals later := by
          simp [exchanges, nothing]
        rw [List.flatMap_cons, silent, List.nil_append, same]
        exact ih laterRan

/--
In every run in which files stay below 2 GiB, the wire is a prefix of the complete
responses and nothing is written after a call that gave up, exactly when no system
call made after the one that made its caller give up takes any bytes.
-/
theorem wirePrefix_iff (routes : Routes) {exchanges : List (Environment × HTTPRequest)}
    (fit : FilesFit routes exchanges) (calls : List SystemCall) :
    wire (responses routes exchanges) calls <+:
          (responses routes exchanges).flatMap Action.intended ∧
        StopsAfterGivingUp (responses routes exchanges) calls ↔
      QuietAfterGivingUp (callsMade (responses routes exchanges) calls) := by
  have sound := sound_responses routes fit
  rw [← stops_iff sound]
  exact and_iff_right_of_imp (wire_isPrefix sound)

/-- A request that is answered with 404 on a connection that is to be kept. -/
def unansweredRequest : HTTPRequest := httpRequestConstructor (bytes "GET /a HTTP/1.1\r\n\r\n")

theorem unansweredRequest_wire :
    wire (responses Routes.ofMain [(idle, unansweredRequest)])
        [.send (.count 20), .send .interrupted, .send .failed, .send .failed] <+:
        (responses Routes.ofMain [(idle, unansweredRequest)]).flatMap Action.intended ∧
      StopsAfterGivingUp (responses Routes.ofMain [(idle, unansweredRequest)])
        [.send (.count 20), .send .interrupted, .send .failed, .send .failed] :=
  (wirePrefix_iff Routes.ofMain
    (by simp [FilesFit, FileFits, resolvePath, checkAgain, idle]) _).mpr
    (by unfold QuietAfterGivingUp; decide +kernel)

/-- After `EAGAIN` for the whole head the page of the 404 goes out alone. -/
theorem unansweredRequest_headless :
    ¬∀ (routes : Routes) (exchanges : List (Environment × HTTPRequest))
      (calls : List SystemCall),
      wire (responses routes exchanges) calls <+:
        (responses routes exchanges).flatMap Action.intended := by
  intro isPrefix
  have sent := isPrefix Routes.ofMain [(idle, unansweredRequest)]
    [.send .wouldBlock, .send (.count 80)]
  exact absurd sent (by decide +kernel)

end LetUsConnect
