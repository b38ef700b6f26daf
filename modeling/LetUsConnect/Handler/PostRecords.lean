import LetUsConnect.Handler.PostData
import LetUsConnect.Lib.Transition
import Mathlib.Data.Finset.Card
import Mathlib.Data.Fintype.Basic
import Mathlib.Data.Multiset.Filter

/-!
# Records of concurrent requests

A record of `post_data.txt` is a body and a line feed, written by two calls of
`write` under no lock, so that the calls of other requests may come between.
The file is followed as lines that are closed and one that is open.
-/

namespace LetUsConnect

open CString

/-! ## Interleavings -/

/-- A request that stores its body while `open` succeeds and each `write` appends everything. -/
structure Posting where
  env : Environment
  request : HTTPRequest
  uri : Bytes
  fileFd : ℕ
  stores : StoresBody request uri
  opens : env.openFile postDataPath = some fileFd
  writesBody : env.write 0 = some (request.data.getD []).length
  writesFeed : env.write 1 = some 1

namespace Posting

variable (posting : Posting)

def body : Bytes := posting.request.data.getD []

/-- The actions of the handler. -/
def actions : List Action := handleFilesystemRequest posting.env posting.request

/-- The number of actions before the `write` of the body. -/
def bodyIndex : ℕ := 3

/-- The number of actions before the `write` of the line feed. -/
def feedIndex : ℕ := 4

/-- The actions around the two calls of `write`. -/
theorem actions_eq : ∃ before after,
    posting.actions = before ++ [.write posting.fileFd posting.body (some posting.body.length),
      .write posting.fileFd (bytes "\n") (some 1)] ++ after ∧
      before.length = bodyIndex ∧ ∀ action ∈ before ++ after, action.appends = [] := by
  rcases Option.isSome_iff_exists.mp posting.stores.declared with ⟨value, found⟩
  have stored : posting.actions = handlePost posting.env posting.request posting.uri :=
    handleFilesystemRequest_of_storesBody posting.stores posting.env
  simp only [handlePost, found, storeBody, posting.opens, posting.writesBody, posting.writesFeed,
    sendCreated_eq] at stored
  refine ⟨[_, _, _], _, stored, rfl, ?_⟩
  simp [Action.appends]

theorem appends_body {action : Action} (isAction : posting.actions[bodyIndex]? = some action) :
    action.appends = posting.body := by
  rcases posting.actions_eq with ⟨before, after, split, count, -⟩
  rw [split, List.append_assoc, ← count, List.getElem?_append_right le_rfl] at isAction
  simp only [Nat.sub_self, List.cons_append, List.getElem?_cons_zero, Option.some.injEq]
    at isAction
  simp [← isAction, Action.appends]

theorem appends_feed {action : Action} (isAction : posting.actions[feedIndex]? = some action) :
    action.appends = bytes "\n" := by
  rcases posting.actions_eq with ⟨before, after, split, count, -⟩
  have place : feedIndex = before.length + 1 := by rw [count]; rfl
  rw [split, List.append_assoc, place, List.getElem?_append_right (Nat.le_succ _)] at isAction
  have second : before.length.succ - before.length = 1 := by simp
  simp only [second, List.cons_append, List.getElem?_cons_succ, List.getElem?_cons_zero,
    Option.some.injEq] at isAction
  simp [← isAction, Action.appends, bytes]

theorem appends_other {action : Action} {index : ℕ} (notBody : index ≠ bodyIndex)
    (notFeed : index ≠ feedIndex) (isAction : posting.actions[index]? = some action) :
    action.appends = [] := by
  rcases posting.actions_eq with ⟨before, after, split, count, silent⟩
  rw [split, List.append_assoc] at isAction
  by_cases early : index < before.length
  · rw [List.getElem?_append_left early] at isAction
    exact silent action (List.mem_append_left _ (List.mem_of_getElem? isAction))
  · have late : index = before.length + (index - before.length - 2 + 2) := by
      rw [count] at early ⊢
      rw [bodyIndex, feedIndex] at *
      omega
    rw [late, List.getElem?_append_right (Nat.le_add_right _ _)] at isAction
    simp only [Nat.add_sub_cancel_left, List.cons_append, List.nil_append,
      List.getElem?_cons_succ] at isAction
    exact silent action (List.mem_append_right _ (List.mem_of_getElem? isAction))

end Posting

/-- Requests that are handled at the same time, and the file they share. -/
structure PostState (Request : Type) where
  /-- The number of actions done for a request. -/
  position : Request → ℕ
  content : Bytes
  /-- The bodies written since the last line feed was. -/
  openLine : Bytes

variable {Request : Type} [DecidableEq Request] [Fintype Request]

namespace PostState

def start (before : Bytes) : PostState Request := ⟨fun _ => 0, before, []⟩

/-- The next action for a request. -/
def step (postings : Request → Posting) (request : Request) (state : PostState Request) :
    Option (PostState Request) :=
  ((postings request).actions[state.position request]?).map fun action =>
    { position := Function.update state.position request (state.position request + 1)
      content := state.content ++ action.appends
      openLine :=
        if state.position request = Posting.bodyIndex then state.openLine ++ action.appends
        else if state.position request = Posting.feedIndex then []
        else state.openLine }

/-- The requests whose action with this index is done. -/
def past (state : PostState Request) (index : ℕ) : Finset Request :=
  Finset.univ.filter fun request => index < state.position request

/-- No request is between its two calls of `write`. -/
def Quiet (state : PostState Request) : Prop :=
  ∀ request, state.position request ≠ Posting.feedIndex

/-- A body that is not empty is only written at the start of a line. -/
def Separated (postings : Request → Posting) (state : PostState Request) (request : Request) :
    Prop :=
  state.position request = Posting.bodyIndex → (postings request).body ≠ [] →
    state.openLine = []

instance (postings : Request → Posting) (state : PostState Request) (request : Request) :
    Decidable (state.Separated postings request) :=
  inferInstanceAs (Decidable (_ → _ → _))

/-- The bodies of the requests whose action with this index is done. -/
def bodiesPast (postings : Request → Posting) (state : PostState Request) (index : ℕ) :
    Multiset Bytes :=
  (state.past index).val.map fun request => (postings request).body

/-- The file grew by one whole record for each request done, in some order. -/
def WholeRecords (postings : Request → Posting) (before : Bytes) (state : PostState Request) :
    Prop :=
  ∃ bodies : List Bytes,
    (bodies : Multiset Bytes) = state.bodiesPast postings Posting.feedIndex ∧
    state.content = before ++ unlines bodies

section Steps

variable {postings : Request → Posting} {state after : PostState Request} {request : Request}

omit [Fintype Request] in
/-- What one step does to the file. -/
theorem step_cases (taken : step postings request state = some after) :
    after.position = Function.update state.position request (state.position request + 1) ∧
    ((state.position request = Posting.bodyIndex ∧
        after.content = state.content ++ (postings request).body ∧
        after.openLine = state.openLine ++ (postings request).body) ∨
      (state.position request = Posting.feedIndex ∧
        after.content = state.content ++ bytes "\n" ∧ after.openLine = []) ∨
      (state.position request ≠ Posting.bodyIndex ∧ state.position request ≠ Posting.feedIndex ∧
        after.content = state.content ∧ after.openLine = state.openLine)) := by
  rcases Option.map_eq_some_iff.mp taken with ⟨action, isAction, rfl⟩
  refine ⟨rfl, ?_⟩
  by_cases isBody : state.position request = Posting.bodyIndex
  · have written := (postings request).appends_body (isBody ▸ isAction)
    exact Or.inl ⟨isBody, by simp [written], by simp [isBody, written]⟩
  · by_cases isFeed : state.position request = Posting.feedIndex
    · have written := (postings request).appends_feed (isFeed ▸ isAction)
      exact Or.inr (Or.inl ⟨isFeed, by simp [written], by rw [if_neg isBody, if_pos isFeed]⟩)
    · have written := (postings request).appends_other isBody isFeed isAction
      exact Or.inr (Or.inr ⟨isBody, isFeed, by simp [written], by simp [isBody, isFeed]⟩)

omit [DecidableEq Request] in
theorem notMem_past : request ∉ state.past (state.position request) := by
  simp [past]

/-- A step does the one action it is at. -/
theorem past_step
    (moved : after.position = Function.update state.position request (state.position request + 1))
    (index : ℕ) :
    after.past index =
      if state.position request = index then insert request (state.past index)
      else state.past index := by
  ext other
  by_cases same : other = request
  · subst same
    split_ifs with here <;> simp [past, moved] <;> omega
  · split_ifs <;> simp [past, moved, same]

end Steps

/-! ## Lines -/

/-- The parts that are not empty. -/
def nonempty (parts : Multiset Bytes) : Multiset Bytes := parts.filter (· ≠ [])

/-- The lines closed after a step for `request`. -/
def linesAfter (state : PostState Request) (request : Request) (lines : List Bytes) : List Bytes :=
  if state.position request = Posting.feedIndex then lines ++ [state.openLine] else lines

/-- The file is what was there, some closed lines, and an open one. -/
structure Recorded (before : Bytes) (lines : List Bytes) (state : PostState Request) : Prop where
  content : state.content = before ++ unlines lines ++ state.openLine
  count : lines.length = (state.past Posting.feedIndex).card
  closes : state.openLine ≠ [] → ∃ request, state.position request = Posting.feedIndex

/-- The lines that are not empty are the bodies that are not, each once. -/
def Tight (postings : Request → Posting) (lines : List Bytes) (state : PostState Request) : Prop :=
  nonempty (state.openLine ::ₘ lines) = nonempty (state.bodiesPast postings Posting.bodyIndex)

/-- There are fewer lines that are not empty than such bodies, by at least `excess`. -/
def Merged (postings : Request → Posting) (excess : ℕ) (lines : List Bytes)
    (state : PostState Request) : Prop :=
  (nonempty (state.openLine ::ₘ lines)).card + excess ≤
    (nonempty (state.bodiesPast postings Posting.bodyIndex)).card

/-- No line has a line feed in it. -/
def Feedless (lines : List Bytes) (state : PostState Request) : Prop :=
  ∀ line ∈ state.openLine :: lines, ch '\n' ∉ line

section Lines

variable {postings : Request → Posting} {state after : PostState Request} {request : Request}
  {before : Bytes} {lines : List Bytes} {excess : ℕ}

theorem bodiesPast_step (taken : step postings request state = some after) (index : ℕ) :
    after.bodiesPast postings index =
      if state.position request = index then
        (postings request).body ::ₘ state.bodiesPast postings index
      else state.bodiesPast postings index := by
  have moved := (step_cases taken).1
  rw [bodiesPast, past_step moved]
  split_ifs with here
  · subst here
    rw [Finset.insert_val_of_notMem notMem_past, Multiset.map_cons]
    rfl
  · rfl

/-- Closed lines are closed by the requests that are done. -/
theorem Recorded.next (recorded : Recorded before lines state)
    (taken : step postings request state = some after) :
    Recorded before (linesAfter state request lines) after := by
  rcases step_cases taken with ⟨moved, effect⟩
  have counted := past_step moved Posting.feedIndex
  rcases effect with ⟨isBody, content, openLine⟩ | ⟨isFeed, content, openLine⟩ |
    ⟨notBody, notFeed, content, openLine⟩
  · have notFeed : state.position request ≠ Posting.feedIndex := by
      rw [isBody]
      decide
    rw [if_neg notFeed] at counted
    rw [linesAfter, if_neg notFeed]
    refine ⟨?_, ?_, fun _ => ⟨request, ?_⟩⟩
    · rw [content, openLine, recorded.content]
      simp
    · rw [counted]
      exact recorded.count
    · rw [moved, Function.update_self, isBody]
      rfl
  · rw [if_pos isFeed] at counted
    rw [linesAfter, if_pos isFeed]
    refine ⟨?_, ?_, fun opened => absurd openLine opened⟩
    · rw [content, openLine, recorded.content, unlines_append]
      simp [bytes]
    · have fresh : request ∉ state.past Posting.feedIndex := isFeed ▸ notMem_past
      rw [counted, Finset.card_insert_of_notMem fresh, ← recorded.count]
      simp
  · rw [if_neg notFeed] at counted
    rw [linesAfter, if_neg notFeed]
    refine ⟨?_, ?_, ?_⟩
    · rw [content, openLine, recorded.content]
    · rw [counted]
      exact recorded.count
    · intro opened
      rw [openLine] at opened
      rcases recorded.closes opened with ⟨other, isFeed⟩
      have different : other ≠ request := fun same => notFeed (same ▸ isFeed)
      refine ⟨other, ?_⟩
      rw [moved, Function.update_of_ne different]
      exact isFeed

omit [DecidableEq Request] [Fintype Request] in
theorem nonempty_cons_nil (parts : Multiset Bytes) : nonempty ([] ::ₘ parts) = nonempty parts := by
  simp [nonempty]

omit [DecidableEq Request] [Fintype Request] in
theorem nonempty_cons {part : Bytes} (notNil : part ≠ []) (parts : Multiset Bytes) :
    nonempty (part ::ₘ parts) = part ::ₘ nonempty parts := by
  simp [nonempty, notNil]

/-- What a step does to the lines and the bodies that are not empty. -/
theorem nonempty_step (taken : step postings request state = some after) (lines : List Bytes) :
    ((state.position request = Posting.bodyIndex → (postings request).body = []) ∧
      nonempty (after.openLine ::ₘ linesAfter state request lines) =
        nonempty (state.openLine ::ₘ lines) ∧
      nonempty (after.bodiesPast postings Posting.bodyIndex) =
        nonempty (state.bodiesPast postings Posting.bodyIndex)) ∨
    (state.position request = Posting.bodyIndex ∧ (postings request).body ≠ [] ∧
      nonempty (after.openLine ::ₘ linesAfter state request lines) =
        (state.openLine ++ (postings request).body) ::ₘ nonempty (lines : Multiset Bytes) ∧
      nonempty (after.bodiesPast postings Posting.bodyIndex) =
        (postings request).body ::ₘ nonempty (state.bodiesPast postings Posting.bodyIndex)) := by
  have passed := bodiesPast_step taken Posting.bodyIndex
  rcases (step_cases taken).2 with ⟨isBody, -, openLine⟩ | ⟨isFeed, -, openLine⟩ |
    ⟨notBody, notFeed, -, openLine⟩
  · have notFeed : state.position request ≠ Posting.feedIndex := by
      rw [isBody]
      decide
    rw [passed, if_pos isBody, linesAfter, if_neg notFeed, openLine]
    by_cases empty : (postings request).body = []
    · left
      rw [empty, List.append_nil, nonempty_cons_nil]
      exact ⟨fun _ => rfl, rfl, rfl⟩
    · right
      have grown : state.openLine ++ (postings request).body ≠ [] := by
        simp [empty]
      exact ⟨isBody, empty, nonempty_cons grown _, nonempty_cons empty _⟩
  · have notBody : state.position request ≠ Posting.bodyIndex := by
      rw [isFeed]
      decide
    have closed : ((lines ++ [state.openLine] : List Bytes) : Multiset Bytes) =
        state.openLine ::ₘ lines :=
      Multiset.coe_eq_coe.mpr (List.perm_append_singleton _ _)
    left
    rw [passed, if_neg notBody, linesAfter, if_pos isFeed, openLine, nonempty_cons_nil, closed]
    exact ⟨fun isBody => absurd isBody notBody, rfl, rfl⟩
  · left
    rw [passed, if_neg notBody, linesAfter, if_neg notFeed, openLine]
    exact ⟨fun isBody => absurd isBody notBody, rfl, rfl⟩

theorem Tight.next (tight : Tight postings lines state)
    (separated : state.Separated postings request)
    (taken : step postings request state = some after) :
    Tight postings (linesAfter state request lines) after := by
  rcases nonempty_step taken lines with ⟨-, sameLines, sameBodies⟩ |
    ⟨isBody, notNil, newLines, newBodies⟩
  · rw [Tight, sameLines, sameBodies]
    exact tight
  · have atStart : state.openLine = [] := separated isBody notNil
    rw [Tight, atStart, nonempty_cons_nil] at tight
    rw [Tight, newLines, newBodies, atStart, tight, List.nil_append]

theorem Merged.next (merged : Merged postings excess lines state)
    (taken : step postings request state = some after) :
    Merged postings excess (linesAfter state request lines) after := by
  rcases nonempty_step taken lines with ⟨-, sameLines, sameBodies⟩ |
    ⟨-, -, newLines, newBodies⟩
  · rw [Merged, sameLines, sameBodies]
    exact merged
  · have fewer : (nonempty (lines : Multiset Bytes)).card ≤
        (nonempty (state.openLine ::ₘ lines)).card := by
      apply Multiset.card_le_card
      exact Multiset.filter_le_filter _ (Multiset.le_cons_self _ _)
    rw [Merged] at merged ⊢
    rw [newLines, newBodies, Multiset.card_cons, Multiset.card_cons]
    omega

/-- A body that is written onto another one makes one line less. -/
theorem Merged.onto (merged : Merged postings excess lines state)
    (onto : ¬state.Separated postings request)
    (taken : step postings request state = some after) :
    Merged postings (excess + 1) (linesAfter state request lines) after := by
  have opened : state.openLine ≠ [] := fun atStart => onto fun _ _ => atStart
  rcases nonempty_step taken lines with ⟨writesNone, -, -⟩ |
    ⟨-, -, newLines, newBodies⟩
  · exact absurd (fun isBody notNil => absurd (writesNone isBody) notNil) onto
  · rw [Merged, nonempty_cons opened, Multiset.card_cons] at merged
    rw [Merged, newLines, newBodies, Multiset.card_cons, Multiset.card_cons]
    omega

omit [Fintype Request] in
theorem Feedless.next (feedless : Feedless lines state)
    (bodies : ∀ request, ch '\n' ∉ (postings request).body)
    (taken : step postings request state = some after) :
    Feedless (linesAfter state request lines) after := by
  have opened := feedless state.openLine (List.mem_cons_self ..)
  have closed : ∀ line ∈ lines, ch '\n' ∉ line :=
    fun line isLine => feedless line (List.mem_cons_of_mem _ isLine)
  intro line isLine
  rcases (step_cases taken).2 with ⟨isBody, -, openLine⟩ | ⟨isFeed, -, openLine⟩ |
    ⟨notBody, notFeed, -, openLine⟩
  · have notFeed : state.position request ≠ Posting.feedIndex := by
      rw [isBody]
      decide
    rw [linesAfter, if_neg notFeed, openLine] at isLine
    rcases List.mem_cons.mp isLine with rfl | isLine
    · simp [opened, bodies request]
    · exact closed line isLine
  · rw [linesAfter, if_pos isFeed, openLine] at isLine
    rcases List.mem_cons.mp isLine with rfl | isLine
    · exact List.not_mem_nil
    · rcases List.mem_append.mp isLine with isLine | isLine
      · exact closed line isLine
      · rw [List.mem_singleton.mp isLine]
        exact opened
  · rw [linesAfter, if_neg notFeed, openLine] at isLine
    exact feedless line isLine

/-! ## Whole records -/

omit [DecidableEq Request] [Fintype Request] in
/-- Parts are determined by how many there are and by those that are not empty. -/
theorem eq_of_nonempty_eq {parts others : Multiset Bytes} (same : nonempty parts = nonempty others)
    (count : parts.card = others.card) : parts = others := by
  have split : ∀ parts : Multiset Bytes,
      parts = nonempty parts + Multiset.replicate (parts.card - (nonempty parts).card) [] := by
    intro parts
    have whole : nonempty parts + parts.filter (fun part => ¬part ≠ []) = parts :=
      Multiset.filter_add_not _ parts
    have counted := congrArg Multiset.card whole
    rw [Multiset.card_add] at counted
    have empties : parts.filter (fun part => ¬part ≠ []) =
        Multiset.replicate (parts.card - (nonempty parts).card) [] := by
      rw [Multiset.eq_replicate]
      refine ⟨by omega, fun part isPart => ?_⟩
      simpa using Multiset.of_mem_filter isPart
    rw [← empties]
    exact whole.symm
  rw [split parts, split others, same, count]

omit [DecidableEq Request] in
/-- Once no request is between its writes, no line is open and both counts agree. -/
theorem Recorded.quiet (recorded : Recorded before lines state) (quiet : state.Quiet) :
    state.openLine = [] ∧ state.past Posting.bodyIndex = state.past Posting.feedIndex := by
  constructor
  · by_contra opened
    rcases recorded.closes opened with ⟨request, isFeed⟩
    exact quiet request isFeed
  · ext request
    have notFeed := quiet request
    simp only [past, Finset.mem_filter, Finset.mem_univ, true_and]
    rw [Posting.feedIndex] at *
    rw [Posting.bodyIndex]
    omega

omit [DecidableEq Request] in
theorem wholeRecords_of_tight (recorded : Recorded before lines state)
    (tight : Tight postings lines state) (quiet : state.Quiet) :
    WholeRecords postings before state := by
  rcases recorded.quiet quiet with ⟨atStart, same⟩
  rw [Tight, atStart, nonempty_cons_nil, bodiesPast, same] at tight
  refine ⟨lines, eq_of_nonempty_eq tight ?_, ?_⟩
  · rw [Multiset.coe_card, recorded.count, bodiesPast, Multiset.card_map]
    rfl
  · rw [recorded.content, atStart, List.append_nil]

omit [DecidableEq Request] in
theorem not_wholeRecords_of_merged (recorded : Recorded before lines state)
    (feedless : Feedless lines state) (merged : Merged postings 1 lines state)
    (bodies : ∀ request, ch '\n' ∉ (postings request).body) (quiet : state.Quiet) :
    ¬WholeRecords postings before state := by
  rintro ⟨found, isBodies, content⟩
  rcases recorded.quiet quiet with ⟨atStart, same⟩
  have clear : ∀ line ∈ found, ch '\n' ∉ line := by
    intro line isLine
    have isBody : line ∈ (found : Multiset Bytes) := Multiset.mem_coe.mpr isLine
    rw [isBodies, bodiesPast, Multiset.mem_map] at isBody
    rcases isBody with ⟨request, -, rfl⟩
    exact bodies request
  have sameLines : lines = found := by
    apply unlines_inj (fun line isLine => feedless line (List.mem_cons_of_mem _ isLine)) clear
    rw [recorded.content, atStart, List.append_nil] at content
    exact List.append_cancel_left content
  rw [Merged, atStart, nonempty_cons_nil, bodiesPast, same, sameLines, isBodies, bodiesPast]
    at merged
  omega

end Lines

end PostState

/-- All interleavings of the actions of these requests. -/
def postSystem (postings : Request → Posting) (before : Bytes) :
    Transition.System (PostState Request) Request where
  initial state := state = PostState.start before
  step := PostState.step postings

namespace PostState

section Runs

variable {postings : Request → Posting} {before : Bytes} {state : PostState Request}

omit [DecidableEq Request] in
theorem past_start (index : ℕ) : (start before : PostState Request).past index = ∅ := by
  simp [past, start]

omit [DecidableEq Request] in
theorem recorded_start : Recorded before [] (start before : PostState Request) := by
  refine ⟨?_, ?_, fun opened => absurd rfl opened⟩
  · simp [start]
  · rw [past_start]
    rfl

omit [DecidableEq Request] in
theorem nonempty_bodiesPast_start :
    nonempty ((start before : PostState Request).bodiesPast postings Posting.bodyIndex) = 0 := by
  rw [bodiesPast, past_start]
  rfl

/-- Where no body is written onto another one, no line is lost. -/
theorem tight_of_separated
    (reached : (postSystem postings before).ReachableWhere (Separated postings) state) :
    ∃ lines, Recorded before lines state ∧ Tight postings lines state := by
  have nothingKnown : ∀ state, (postSystem postings before).Reachable state → True :=
    fun _ _ => trivial
  apply Transition.System.ReachableWhere.invariant nothingKnown _ _ reached
  · rintro state rfl
    refine ⟨[], recorded_start, ?_⟩
    rw [Tight, nonempty_bodiesPast_start]
    rfl
  · rintro state request after - ⟨lines, recorded, tight⟩ separated taken
    exact ⟨_, recorded.next taken, tight.next separated taken⟩

/-- Lines that are lost once are lost in every later state. -/
theorem merged_of_reachable {earlier : PostState Request} {excess : ℕ} {lines : List Bytes}
    (bodies : ∀ request, ch '\n' ∉ (postings request).body)
    (recorded : Recorded before lines earlier) (feedless : Feedless lines earlier)
    (merged : Merged postings excess lines earlier)
    (reached : ((postSystem postings before).startingAt earlier).Reachable state) :
    ∃ lines, Recorded before lines state ∧ Feedless lines state ∧
      Merged postings excess lines state := by
  apply reached.invariant
  · rintro state rfl
    exact ⟨lines, recorded, feedless, merged⟩
  · rintro state request after ⟨lines, recorded, feedless, merged⟩ taken
    exact ⟨_, recorded.next taken, feedless.next bodies taken, merged.next taken⟩

omit [DecidableEq Request] [Fintype Request] in
theorem feedless_start : Feedless [] (start before : PostState Request) := by
  simp [Feedless, start]

omit [DecidableEq Request] in
theorem merged_start : Merged postings 0 [] (start before : PostState Request) := by
  rw [Merged, nonempty_bodiesPast_start]
  exact Nat.le_refl 0

/-- A body written onto another one is never made good, as long as the lines can be told apart. -/
theorem not_wholeRecords_of_violation {earlier next : PostState Request} {request : Request}
    {rest : List Request} (bodies : ∀ request, ch '\n' ∉ (postings request).body)
    (reached : (postSystem postings before).Reachable earlier)
    (onto : ¬earlier.Separated postings request)
    (taken : (postSystem postings before).step request earlier = some next)
    (later : (postSystem postings before).run rest next = some state) (quiet : state.Quiet) :
    ¬WholeRecords postings before state := by
  rcases merged_of_reachable bodies recorded_start feedless_start merged_start reached with
    ⟨lines, recorded, feedless, merged⟩
  have remaining := Transition.System.reachable_of_run later
  rcases merged_of_reachable bodies (recorded.next taken) (feedless.next bodies taken)
    (merged.onto onto taken) remaining with ⟨lines, recorded, feedless, merged⟩
  exact not_wholeRecords_of_merged recorded feedless merged bodies quiet

end Runs

end PostState

/--
Records stay whole when no body is written onto another one, and, where the
bodies are lines, only then.
-/
theorem records_whole_iff {postings : Request → Posting} {before : Bytes}
    {labels : List Request} {state : PostState Request}
    (ran : (postSystem postings before).run labels (PostState.start before) = some state)
    (quiet : state.Quiet) :
    ((postSystem postings before).runWhere (PostState.Separated postings) labels
        (PostState.start before) = some state →
      state.WholeRecords postings before) ∧
    ((∀ request, ch '\n' ∉ (postings request).body) → state.WholeRecords postings before →
      (postSystem postings before).runWhere (PostState.Separated postings) labels
        (PostState.start before) = some state) := by
  constructor
  · intro separated
    have reached : (postSystem postings before).ReachableWhere (PostState.Separated postings)
        state :=
      Transition.System.ReachableWhere.runWhere (.start rfl) separated
    rcases PostState.tight_of_separated reached with ⟨lines, recorded, tight⟩
    exact PostState.wholeRecords_of_tight recorded tight quiet
  · intro bodies whole
    rcases Transition.System.runWhere_or_violation (PostState.Separated postings) ran with
      separated | ⟨earlier, request, next, rest, reached, onto, taken, later⟩
    · exact separated
    · have lost := PostState.not_wholeRecords_of_violation bodies reached onto taken later quiet
      exact absurd whole lost

/-- A request that stores one letter. -/
def letterRequest (second : Bool) : HTTPRequest :=
  httpRequestConstructor (bytes "POST / HTTP/1.1\r\nContent-Length: 1\r\n\r\n" ++
    if second then bytes "b" else bytes "a")

/-- Two requests that store a letter each. -/
def letterPosting (second : Bool) : Posting where
  env := { idle with openFile := fun _ => some 7, write := fun _ => some 1 }
  request := letterRequest second
  uri := bytes "/"
  fileFd := 7
  stores := ⟨⟨by cases second <;> decide, by cases second <;> decide, by cases second <;> decide⟩,
    by cases second <;> decide, by cases second <;> decide⟩
  opens := rfl
  writesBody := by cases second <;> decide
  writesFeed := rfl

/-- Both requests up to the write of the body. -/
def bothOpened : List Bool := [false, true, false, true, false, true]

theorem letters_separated : ∃ state,
    (postSystem letterPosting []).runWhere (PostState.Separated letterPosting)
        (bothOpened ++ [false, false, true, true]) (PostState.start []) = some state ∧
      state.Quiet := by
  have evaluated : ((postSystem letterPosting []).runWhere (PostState.Separated letterPosting)
      (bothOpened ++ [false, false, true, true]) (PostState.start [])).any
        (fun state => decide (∀ request, state.position request ≠ Posting.feedIndex)) := by
    decide +kernel
  rcases (Option.any_eq_true _ _).mp evaluated with ⟨state, ran, quiet⟩
  have notBetween := of_decide_eq_true quiet
  exact ⟨state, ran, notBetween⟩

theorem letters_whole : ∃ state,
    (postSystem letterPosting []).run (bothOpened ++ [false, false, true, true])
        (PostState.start []) = some state ∧
      state.Quiet ∧ state.WholeRecords letterPosting [] := by
  rcases letters_separated with ⟨state, separated, quiet⟩
  have ran := Transition.System.run_of_runWhere separated
  exact ⟨state, ran, quiet, (records_whole_iff ran quiet).1 separated⟩

/-- The bodies are written first and the line feeds after them. -/
theorem letters_joined :
    ¬∀ (Request : Type) [DecidableEq Request] [Fintype Request] (postings : Request → Posting)
      (before : Bytes) (labels : List Request) (state : PostState Request),
        (postSystem postings before).run labels (PostState.start before) = some state →
        state.Quiet → state.WholeRecords postings before := by
  intro whole
  have evaluated : ((postSystem letterPosting []).run
      (bothOpened ++ [false, true, false, true]) (PostState.start [])).any
        (fun state => decide ((∀ request, state.position request ≠ Posting.feedIndex) ∧
          state.content = unlines [bytes "ab", []])) := by
    decide +kernel
  rcases (Option.any_eq_true _ _).mp evaluated with ⟨state, ran, holds⟩
  rcases of_decide_eq_true holds with ⟨quiet, content⟩
  rcases whole Bool letterPosting [] _ state ran quiet with ⟨bodies, isBodies, same⟩
  have isLetter : ∀ body ∈ bodies, ∃ second, (letterPosting second).body = body := by
    intro body member
    have isBody : body ∈ (bodies : Multiset Bytes) := Multiset.mem_coe.mpr member
    rw [isBodies, PostState.bodiesPast, Multiset.mem_map] at isBody
    rcases isBody with ⟨second, -, isBody⟩
    exact ⟨second, isBody⟩
  have clear : ∀ body ∈ bodies, ch '\n' ∉ body := by
    intro body member
    rcases isLetter body member with ⟨second, rfl⟩
    cases second <;> decide
  rw [content, List.nil_append] at same
  have lines := unlines_inj (by decide) clear same
  rcases isLetter [] (by simp [← lines]) with ⟨second, impossible⟩
  cases second <;> exact absurd impossible (by decide)

end LetUsConnect
