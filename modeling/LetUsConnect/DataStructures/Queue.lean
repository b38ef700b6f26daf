import LetUsConnect.DataStructures.LinkedList.Sequence

/-!
# The queue

`DataStructures/Lists/Queue.c`, which is a linked list whose operations are called
with fixed positions. Nothing keeps a caller from removing the head of an empty
list, and `remove_node_ll` then counts the length down to `-1`. The next insertion
at that position has no node to follow.
-/

namespace LetUsConnect

open Transition

variable {Block Data : Type}

/-- `struct Queue`. -/
structure Queue (Block Data : Type) where
  list : PointerList Block Data

/-- `queue_constructor`. -/
def queueConstructor (memory : Memory Block Data) : Queue Block Data :=
  ⟨PointerList.constructor memory⟩

namespace Queue

def peek (queue : Queue Block Data) : Option (Option Block) := queue.list.retrieveLl 0

variable [DecidableEq Block]

/-- `push`, with the blocks `malloc` returned. -/
def push (queue : Queue Block Data) (newNode newData : Block) (content : Cell Block Data) :
    Option (Queue Block Data) :=
  (queue.list.insertLl queue.list.length newNode newData content).map Queue.mk

def pop (queue : Queue Block Data) : Option (Queue Block Data) :=
  (queue.list.removeNodeLl 0).map Queue.mk

end Queue

/-- A call of an operation of the queue. -/
inductive QueueCall (Block Data : Type) where
  | push (newNode newData : Block) (content : Cell Block Data)
  | peek
  | pop

/-- A queue, and beside it the elements that were pushed and not popped. -/
structure QueueState (Block Data : Type) where
  queue : Queue Block Data
  elements : List (Element Block Data)

namespace QueueCall

/-- What `malloc` promises. -/
def Allocates (call : QueueCall Block Data) (state : QueueState Block Data) : Prop :=
  match call with
  | .push newNode newData _ => state.queue.list.Fresh newNode newData
  | _ => True

/-- An element is popped although there is none. -/
def PopsNothing (call : QueueCall Block Data) (state : QueueState Block Data) : Prop :=
  match call with
  | .pop => state.elements = []
  | _ => False

/-- What a call does to the elements of a first-in first-out queue. -/
def onElements (call : QueueCall Block Data) (elements : List (Element Block Data)) :
    List (Element Block Data) :=
  match call with
  | .push _ newData content => elements ++ [⟨newData, content⟩]
  | .peek => elements
  | .pop => elements.tail

variable [DecidableEq Block]

instance (call : QueueCall Block Data) (state : QueueState Block Data) :
    Decidable (call.Allocates state) :=
  match call with
  | .push newNode newData _ =>
      inferInstanceAs (Decidable (state.queue.list.Fresh newNode newData))
  | .peek => inferInstanceAs (Decidable True)
  | .pop => inferInstanceAs (Decidable True)

/-- What a call does to the queue in memory. -/
def onQueue (call : QueueCall Block Data) (queue : Queue Block Data) : Option (Queue Block Data) :=
  match call with
  | .push newNode newData content => queue.push newNode newData content
  | .peek => queue.peek.map fun _ => queue
  | .pop => queue.pop

end QueueCall

/-- The calls on one queue, from its construction in any memory on. -/
def queueSystem (Block Data : Type) [DecidableEq Block] :
    System (QueueState Block Data) (QueueCall Block Data) where
  initial state := ∃ memory, state = ⟨queueConstructor memory, []⟩
  step call state :=
    if call.Allocates state then
      (call.onQueue state.queue).map fun queue => ⟨queue, call.onElements state.elements⟩
    else none

/-- The queue holds the elements in the order in which they were pushed. -/
structure QueueState.IsFifo (state : QueueState Block Data) : Prop where
  represents : state.queue.list.Represents state.elements
  nonneg : 0 ≤ state.queue.list.length
  peek : state.queue.peek = some (state.elements.head?.map Held.block)

/-- The call is defined, and the queue stays first-in first-out. -/
def QueueCall.ActsAsFifo [DecidableEq Block] (call : QueueCall Block Data)
    (state : QueueState Block Data) : Prop :=
  ∃ after, (queueSystem Block Data).step call state = some after ∧ after.IsFifo ∧
    (call.PopsNothing state → after = state)

/-- The nodes of the queue hold the elements. -/
def QueueState.Related (state : QueueState Block Data) : Prop :=
  ∃ nodes, state.queue.list.Holds nodes ∧ state.elements = nodes.map HeapNode.data

theorem QueueState.Related.isFifo {state : QueueState Block Data} (related : state.Related) :
    state.IsFifo := by
  rcases related with ⟨nodes, holds, elements⟩
  exact
    { represents := by
        rw [elements]
        exact holds.represents
      nonneg := by
        rw [holds.length]
        omega
      peek := by
        rw [Queue.peek, holds.retrieveLl_eq_getElem?, if_pos le_rfl, elements,
          List.head?_eq_getElem?]
        rfl }

section Runs

variable [DecidableEq Block] {state : QueueState Block Data}

/-- Every call is defined that does not pop an empty queue. -/
theorem QueueState.Related.step (related : state.Related) {call : QueueCall Block Data}
    (allocates : call.Allocates state) (pops : ¬call.PopsNothing state) :
    ∃ after, (queueSystem Block Data).step call state = some after ∧ after.Related := by
  have peeked := related.isFifo.peek
  rcases related with ⟨nodes, holds, elements⟩
  dsimp only [queueSystem]
  rw [if_pos allocates]
  cases call with
  | push newNode newData content =>
      rcases holds.insertLl allocates le_rfl content with ⟨after, inserted, afterHolds⟩
      rw [← holds.length] at inserted
      refine ⟨⟨⟨after⟩, _⟩, by rw [QueueCall.onQueue, Queue.push, inserted]; rfl, _, afterHolds, ?_⟩
      rw [List.insertIdx_length_self, List.map_append, ← elements]
      rfl
  | peek =>
      refine ⟨state, by rw [QueueCall.onQueue, peeked]; rfl, nodes, holds, elements⟩
  | pop =>
      cases nodes with
      | nil => exact absurd elements pops
      | cons node nodes =>
          rcases holds.removeNodeLl_zero with ⟨after, removed, afterHolds, -⟩
          refine ⟨⟨⟨after⟩, _⟩, by rw [QueueCall.onQueue, Queue.pop, removed]; rfl, nodes,
            afterHolds, ?_⟩
          rw [elements]
          rfl

theorem related_of_popsNothing
    (reached : (queueSystem Block Data).ReachableWhere
      (fun state call => ¬call.PopsNothing state) state) : state.Related := by
  apply System.ReachableWhere.invariant (fun _ _ => trivial) _ _ reached
  · rintro state ⟨memory, rfl⟩
    exact ⟨[], PointerList.holds_constructor memory, rfl⟩
  · intro state call after _ related pops taken
    by_cases allocates : call.Allocates state
    · rcases related.step allocates pops with ⟨same, takenSame, afterRelated⟩
      have isSame : after = same := Option.some.inj (taken.symm.trans takenSame)
      exact isSame ▸ afterRelated
    · dsimp only [queueSystem] at taken
      rw [if_neg allocates] at taken
      cases taken

/-- Popping an empty queue leaves the length `-1`. -/
theorem QueueState.Related.pop_empty (related : state.Related) (empty : state.elements = []) :
    (queueSystem Block Data).step .pop state =
      some ⟨⟨{ state.queue.list with length := -1 }⟩, []⟩ := by
  rcases related with ⟨nodes, holds, elements⟩
  cases nodes with
  | nil =>
      dsimp only [queueSystem]
      rw [if_pos (show QueueCall.Allocates .pop state from trivial), QueueCall.onQueue, Queue.pop,
        holds.removeNodeLl_empty, QueueCall.onElements, empty]
      rfl
  | cons node nodes =>
      rw [elements] at empty
      cases empty

/--
As long as no empty queue is popped, the queue is first-in first-out, and the
next call keeps it so exactly if it does not pop an empty queue.
-/
theorem actsAsFifo_iff
    (reached : (queueSystem Block Data).ReachableWhere
      (fun state call => ¬call.PopsNothing state) state) :
    state.IsFifo ∧ ∀ call : QueueCall Block Data, call.Allocates state →
      (call.ActsAsFifo state ↔ ¬call.PopsNothing state) := by
  have related := related_of_popsNothing reached
  refine ⟨related.isFifo, ?_⟩
  intro call allocates
  constructor
  · rintro ⟨after, taken, fifo, unchanged⟩ pops
    cases call with
    | push newNode newData content => exact pops
    | peek => exact pops
    | pop =>
        rw [related.pop_empty pops] at taken
        cases taken
        have nonneg := fifo.nonneg
        dsimp only at nonneg
        omega
  · intro pops
    rcases related.step allocates pops with ⟨after, taken, afterRelated⟩
    exact ⟨after, taken, afterRelated.isFifo, fun popsNothing => absurd popsNothing pops⟩

/-- The first call on a new queue. -/
theorem firstPush_actsAsFifo :
    (QueueCall.push 0 1 (.data ()) : QueueCall ℕ Unit).ActsAsFifo
      ⟨queueConstructor fun _ => none, []⟩ := by
  have isNew : (queueSystem ℕ Unit).ReachableWhere (fun state call => ¬call.PopsNothing state)
      ⟨queueConstructor fun _ => none, []⟩ := .start ⟨_, rfl⟩
  exact ((actsAsFifo_iff isNew).2 (.push 0 1 (.data ())) (by decide)).mpr id

/-- A pop of the new queue changes it, and then no push is defined. -/
theorem firstPop_breaksQueue :
    ∃ after, (queueSystem ℕ Unit).step .pop ⟨queueConstructor fun _ => none, []⟩ = some after ∧
      after.queue.list.length = -1 ∧ ¬after.IsFifo ∧
      (queueSystem ℕ Unit).step (.push 0 1 (.data ())) after = none := by
  refine ⟨_, rfl, rfl, ?_, rfl⟩
  intro fifo
  exact absurd fifo.nonneg (by decide)

end Runs

end LetUsConnect
