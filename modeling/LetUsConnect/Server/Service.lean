import LetUsConnect.Connection.Session
import LetUsConnect.Server.Answering

/-!
# Clients are served as if alone

A client that sends its requests one after the other gets one answer to each from
the whole server, whatever other connections there are and however the threads
take turns. The condition is the one under which connections are isolated: that
no slot is given up amid a request.
-/

namespace LetUsConnect

open CString Readers

/-- The pieces in which a request is received. -/
def Sending.pieces (sending : Sending) : List Bytes := sending.early ++ [sending.last]

/-! ## What a slot makes of the pieces -/

theorem replay_early {text pending more : Bytes} {sectionLength : ℕ}
    (framed : FramedRequest text sectionLength) (unfinished : more ≠ []) {pieces : List Bytes}
    (whole : pending ++ pieces.flatten ++ more = text) (requests : List Bytes) :
    pieces.foldl Replay.receive ⟨pending, requests⟩ = ⟨pending ++ pieces.flatten, requests⟩ := by
  induction pieces generalizing pending with
  | nil => simp
  | cons piece pieces ih =>
      have received : pending ++ piece ++ (pieces.flatten ++ more) = text := by
        simpa using whole
      have isPrefix : pending ++ piece <+: text := ⟨_, received⟩
      have positive : 0 < more.length := List.length_pos_iff.mpr unfinished
      have incomplete : ¬requestComplete (cstr (pending ++ piece)) (pending ++ piece).length := by
        rw [framed.requestComplete_iff isPrefix, ← received]
        simp only [List.length_append]
        omega
      rw [List.foldl_cons, Replay.receive, if_neg incomplete, ih (by simpa using whole)]
      simp

/-- The pieces of a request make it and leave the slot empty. -/
theorem replay_pieces (sending : Sending) (requests : List Bytes) :
    sending.pieces.foldl Replay.receive ⟨[], requests⟩ =
      ⟨[], requests ++ [sending.message.serialize]⟩ := by
  rcases sending.framed with ⟨sectionLength, framed⟩
  have early := replay_early framed sending.nonempty
    (show [] ++ sending.early.flatten ++ sending.last = _ by simp [sending.cut]) requests
  have complete : requestComplete (cstr (sending.early.flatten ++ sending.last))
      (sending.early.flatten ++ sending.last).length := by
    rw [sending.cut, framed.requestComplete_iff List.prefix_rfl]
  rw [Sending.pieces, List.foldl_append, early, List.foldl_cons, List.foldl_nil, Replay.receive]
  dsimp only
  rw [List.nil_append, if_pos complete, sending.cut, cstr_eq_self framed.noNul]

theorem replay_sendings (session : List Sending) (requests : List Bytes) :
    (session.flatMap Sending.pieces).foldl Replay.receive ⟨[], requests⟩ =
      ⟨[], requests ++ session.map fun sending => sending.message.serialize⟩ := by
  induction session generalizing requests with
  | nil => simp
  | cons sending session ih =>
      rw [List.flatMap_cons, List.foldl_append, replay_pieces, ih]
      simp

/-- The first pieces of a session are those of whole requests and some of the next one. -/
structure Received (session : List Sending) (heard : List Bytes) (whole rest : List Sending)
    (part : List Bytes) : Prop where
  session : session = whole ++ rest
  heard : heard = whole.flatMap Sending.pieces ++ part
  isPart : part = [] ∨ ∃ next ∈ rest.head?, part <+: next.early

theorem exists_received {session : List Sending} {heard : List Bytes}
    (sent : heard <+: session.flatMap Sending.pieces) :
    ∃ whole rest part, Received session heard whole rest part := by
  induction session generalizing heard with
  | nil => exact ⟨[], [], [], rfl, List.prefix_nil.mp sent, Or.inl rfl⟩
  | cons sending session ih =>
      rw [List.flatMap_cons] at sent
      rcases List.prefix_or_prefix_of_prefix sent (List.prefix_append _ _) with
        inside | ⟨later, rfl⟩
      · rcases List.prefix_concat_iff.mp inside with complete | early
        · refine ⟨[sending], session, [], rfl, ?_, Or.inl rfl⟩
          simpa [Sending.pieces] using complete
        · exact ⟨[], sending :: session, heard, rfl, rfl, Or.inr ⟨sending, rfl, early⟩⟩
      · rw [List.prefix_append_right_inj] at sent
        rcases ih sent with ⟨whole, rest, part, received⟩
        refine ⟨sending :: whole, rest, part, ?_, ?_, received.isPart⟩
        · rw [received.session, List.cons_append]
        · rw [received.heard, List.flatMap_cons, List.append_assoc]

/-- The requests dispatched are those received as a whole. -/
theorem Received.requests {session whole rest : List Sending} {heard part : List Bytes}
    (received : Received session heard whole rest part) :
    (replay heard).requests = whole.map fun sending => sending.message.serialize := by
  rw [replay, received.heard, List.foldl_append, replay_sendings, List.nil_append]
  rcases received.isPart with rfl | ⟨next, -, early, split⟩
  · rfl
  · rcases next.framed with ⟨sectionLength, framed⟩
    have unfinished : early.flatten ++ next.last ≠ [] := by
      simp [next.nonempty]
    have cut : [] ++ part.flatten ++ (early.flatten ++ next.last) = next.message.serialize := by
      rw [← next.cut, ← split]
      simp
    rw [replay_early framed unfinished cut]

namespace ServerState

variable {Worker : Type} [Fintype Worker] [DecidableEq Worker] {state : ServerState Worker}
  {serverFd connection : ℕ} {routes : Routes}

/--
The requests received as a whole were dispatched and answered in order, and the
client reads one answer to each.
-/
structure ServesSession (routes : Routes) (state : ServerState Worker) (connection : ℕ)
    (whole : List Sending) (envs : List Environment) : Prop where
  each : envs.length = whole.length
  dispatched : state.dispatched connection = whole.map fun sending => sending.message.serialize
  answered : state.answered connection =
    answerAll routes Prod.fst (fun reply => reply.2.message) (envs.zip whole)
  read : (∀ reply ∈ envs.zip whole, reply.2.message.Deliverable routes reply.1) →
    ∀ calls, Carried (state.answered connection) calls →
      inTurn ((envs.zip whole).map fun reply => readResponse reply.2.message.headOnly)
          (wire (state.answered connection) calls) =
        some ((envs.zip whole).map fun reply => reply.2.message.answer routes reply.1, [])

/--
In every run in which no connection is given up amid a request, a connection on
which the first pieces of a session were received has been served the requests
among them, once no worker is between receiving a piece and answering it.
-/
theorem served_of_guarded
    (reached :
      (serverSystem Worker routes.dictionary serverFd).ReachableWhere GivesUpComplete state)
    {session : List Sending} (sent : state.heard connection <+: session.flatMap Sending.pieces)
    (judged : state.Settled connection)
    (handled : ∀ text, ¬state.WorksAt connection (.handle text)) :
    ∃ whole rest part envs, Received session (state.heard connection) whole rest part ∧
      ServesSession routes state connection whole envs := by
  rcases exists_received sent with ⟨whole, rest, part, received⟩
  have owned := owned_of_reachable reached.reachable
  have dispatched : state.dispatched connection =
      whole.map fun sending => sending.message.serialize := by
    rw [← received.requests]
    exact ((separate_of_guarded reached).requests owned connection).2 judged
  rcases exists_servesAt state connection with ⟨place, serves, works⟩
  rcases (answering_of_reachable reached.reachable connection place serves).replied with
    ⟨envs, length, replied⟩
  have settled : place.settled (state.dispatched connection) = state.dispatched connection := by
    cases place with
    | handle text =>
        rcases works with works | impossible
        · exact absurd works (handled text)
        · cases impossible
    | _ => rfl
  rw [settled, dispatched] at length replied
  rw [List.length_map] at length
  have answered : state.answered connection =
      answerAll routes Prod.fst (fun reply => reply.2.message) (envs.zip whole) := by
    rw [replied, replies, List.zip_map_right, List.flatMap_map]
    rfl
  refine ⟨whole, rest, part, envs, received, length, dispatched, answered, ?_⟩
  intro deliverable calls carried
  rw [answered] at carried ⊢
  exact carried.read_answerAll deliverable

/-- The whole request in one piece, to a server that is just started. -/
def hostRun : List (ServerLabel Unit) :=
  claimRun ++ List.replicate 11 (.task () (arrive hostRequest.serialize))

theorem hostRun_served :
    ∃ state, (serverSystem Unit Routes.ofMain.dictionary 3).runWhere GivesUpComplete hostRun
        (serverStart 3 0) = some state ∧ state.heard 0 = [hostRequest.serialize] ∧
      ∃ whole rest part envs,
        Received [hostSending [] hostRequest.serialize (by decide) (by decide)] (state.heard 0)
          whole rest part ∧ ServesSession Routes.ofMain state 0 whole envs := by
  have initially : (serverSystem Unit Routes.ofMain.dictionary 3).initial (serverStart 3 0) :=
    ⟨0, by decide, rfl⟩
  have served : ((serverSystem Unit Routes.ofMain.dictionary 3).runWhere GivesUpComplete hostRun
      (serverStart 3 0)).map (fun state => (state.pool.workers (), state.heard 0)) =
      some (.work (some ⟨5, 0, 0⟩) .done, [hostRequest.serialize]) := by
    decide +kernel
  rcases Option.map_eq_some_iff.mp served with ⟨state, ran, values⟩
  have at_ : state.pool.workers () = .work (some ⟨5, 0, 0⟩) .done := congrArg Prod.fst values
  have heard : state.heard 0 = [hostRequest.serialize] := congrArg Prod.snd values
  refine ⟨state, ran, heard, ?_⟩
  apply served_of_guarded (Transition.System.ReachableWhere.runWhere (.start initially) ran)
  · rw [heard]
    exact List.prefix_rfl
  · exact settled_of_place at_ rfl 0
  · rintro text ⟨worker, task, works, -⟩
    rw [Subsingleton.elim worker (), at_] at works
    cases works

end ServerState

end LetUsConnect
