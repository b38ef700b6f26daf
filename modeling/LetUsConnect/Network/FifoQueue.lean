import Mathlib.Algebra.Order.Ring.Int
import Mathlib.Data.List.Basic
import Mathlib.Data.List.Nodup
import Mathlib.Logic.Function.Basic

/-!
# The queue of tasks

`src/network/fifo_queue.c` on an explicit heap of nodes. A node's `next` points
towards the head of the queue and its `prev` towards the tail. An operation that
follows a pointer to no node is undefined, which shows as `none`.

`IsQueue` relates heap and queue to the list of their nodes; under it both
operations are defined and act on that list as on a first-in first-out queue.
-/

namespace LetUsConnect

universe u

abbrev Address := ℕ

/-- `node_t`. -/
structure QueueNode (Task : Type u) where
  task : Task
  next : Option Address
  prev : Option Address

/-- The allocated nodes. -/
abbrev Heap (Task : Type u) := Address → Option (QueueNode Task)

/-- `fifo_queue_t`; `size` is an integer, since only 2^31 nodes would exceed the `int`. -/
structure FifoQueue where
  size : ℤ
  first : Option Address
  last : Option Address

def fifoQueueInit : FifoQueue := ⟨0, none, none⟩

variable {Task : Type u}

/-- `push_last`, with the address `malloc` returned. -/
def pushLast (heap : Heap Task) (queue : FifoQueue) (newNode : Address) (task : Task) :
    Option (Heap Task × FifoQueue) :=
  if queue.size = 0 then
    some (Function.update heap newNode (some ⟨task, none, none⟩),
      ⟨queue.size + 1, some newNode, some newNode⟩)
  else
    queue.last.bind fun last =>
      (heap last).map fun lastNode =>
        (Function.update (Function.update heap last (some { lastNode with prev := some newNode }))
          newNode (some ⟨task, some last, none⟩),
          ⟨queue.size + 1, queue.first, some newNode⟩)

/-- `pop_first`; the task is `none` when the queue is empty and `*task` is not written. -/
def popFirst (heap : Heap Task) (queue : FifoQueue) :
    Option (Heap Task × FifoQueue × Option Task) :=
  if queue.size = 0 then some (heap, queue, none)
  else
    match queue.first with
    | none => some (heap, queue, none)
    | some first =>
        (heap first).bind fun oldNode =>
          let freed := Function.update heap first none
          if queue.size - 1 = 0 then
            some (freed, ⟨queue.size - 1, oldNode.prev, none⟩, some oldNode.task)
          else
            oldNode.prev.bind fun newFirst =>
              (freed newFirst).map fun node =>
                (Function.update freed newFirst (some { node with next := none }),
                  ⟨queue.size - 1, oldNode.prev, queue.last⟩, some oldNode.task)

/-! ## The list of nodes -/

/-- The nodes from a place in the queue on; `before` is the address of the node ahead. -/
def Linked (heap : Heap Task) : Option Address → List (Address × Task) → Prop
  | _, [] => True
  | before, (address, task) :: nodes =>
      heap address = some ⟨task, before, nodes.head?.map Prod.fst⟩ ∧
        Linked heap (some address) nodes

/-- Heap and queue hold exactly these nodes, from the head to the tail. -/
structure IsQueue (heap : Heap Task) (queue : FifoQueue) (nodes : List (Address × Task)) :
    Prop where
  size : queue.size = nodes.length
  first : queue.first = nodes.head?.map Prod.fst
  last : queue.last = nodes.getLast?.map Prod.fst
  linked : Linked heap none nodes
  allocated : ∀ address, (heap address).isSome ↔ address ∈ nodes.map Prod.fst
  distinct : (nodes.map Prod.fst).Nodup

theorem isQueue_init : IsQueue (fun _ => none : Heap Task) fifoQueueInit [] where
  size := rfl
  first := rfl
  last := rfl
  linked := trivial
  allocated := by simp
  distinct := List.nodup_nil

theorem Linked.congr {heap other : Heap Task} {before : Option Address}
    {nodes : List (Address × Task)} (linked : Linked heap before nodes)
    (same : ∀ address ∈ nodes.map Prod.fst, other address = heap address) :
    Linked other before nodes := by
  induction nodes generalizing before with
  | nil => trivial
  | cons node nodes ih =>
      refine ⟨?_, ?_⟩
      · rw [same node.1 (by simp)]
        exact linked.1
      · apply ih linked.2
        intro address member
        exact same address (List.mem_cons_of_mem _ member)

theorem Linked.push {heap : Heap Task} {before : Option Address} {front : List (Address × Task)}
    {last newNode : Address} {lastTask task : Task} {lastNode : QueueNode Task}
    (linked : Linked heap before (front ++ [(last, lastTask)]))
    (found : heap last = some lastNode)
    (fresh : newNode ∉ (front ++ [(last, lastTask)]).map Prod.fst)
    (distinct : ((front ++ [(last, lastTask)]).map Prod.fst).Nodup) :
    Linked
      (Function.update (Function.update heap last (some { lastNode with prev := some newNode }))
      newNode (some ⟨task, some last, none⟩)) before
      (front ++ [(last, lastTask)] ++ [(newNode, task)]) := by
  induction front generalizing before with
  | nil =>
      have differs : last ≠ newNode := by
        intro same
        simp [same] at fresh
      have node : lastNode = ⟨lastTask, before, none⟩ := by
        simpa [Linked, found] using linked
      simp [Linked, differs, node]
  | cons node front ih =>
      have freshRest : newNode ∉ (front ++ [(last, lastTask)]).map Prod.fst := by
        intro member
        exact fresh (List.mem_cons_of_mem _ member)
      have split := List.nodup_cons.mp distinct
      refine ⟨?_, ih linked.2 freshRest split.2⟩
      have notNew : node.1 ≠ newNode := by
        intro same
        exact fresh (by simp [← same])
      have notLast : node.1 ≠ last := by
        intro same
        exact split.1 (by simp [← same])
      have head : (front ++ [(last, lastTask)] ++ [(newNode, task)]).head? =
          (front ++ [(last, lastTask)]).head? := by
        cases front <;> rfl
      have link : heap node.1 = some ⟨node.2, before,
          (front ++ [(last, lastTask)] ++ [(newNode, task)]).head?.map Prod.fst⟩ := by
        rw [head]
        exact linked.1
      rw [Function.update_of_ne notNew, Function.update_of_ne notLast]
      exact link

theorem IsQueue.push {heap : Heap Task} {queue : FifoQueue} {nodes : List (Address × Task)}
    (isQueue : IsQueue heap queue nodes) {newNode : Address} (fresh : heap newNode = none)
    (task : Task) :
    ∃ heapAfter queueAfter, pushLast heap queue newNode task = some (heapAfter, queueAfter) ∧
      IsQueue heapAfter queueAfter (nodes ++ [(newNode, task)]) := by
  have unused : newNode ∉ nodes.map Prod.fst := by
    rw [← isQueue.allocated, fresh]
    simp
  have distinct : ((nodes ++ [(newNode, task)]).map Prod.fst).Nodup := by
    rw [List.map_append, List.nodup_append]
    refine ⟨isQueue.distinct, by simp, ?_⟩
    rintro address member other isNew rfl
    rw [List.mem_singleton.mp isNew] at member
    exact unused member
  rcases List.eq_nil_or_concat' nodes with rfl | ⟨front, ⟨last, lastTask⟩, rfl⟩
  · have empty : queue.size = 0 := isQueue.size
    refine ⟨_, _, if_pos empty, ?_⟩
    exact
      { size := by rw [empty]; rfl
        first := rfl
        last := rfl
        linked := by simp [Linked]
        allocated := by
          intro address
          have none_ := isQueue.allocated address
          by_cases isNew : address = newNode <;> simp_all
        distinct }
  · have nonempty : queue.size ≠ 0 := by
      rw [isQueue.size, List.length_append, List.length_singleton]
      omega
    have hasLast : queue.last = some last := by
      simpa using isQueue.last
    have isAllocated : (heap last).isSome := by
      rw [isQueue.allocated]
      simp
    rcases Option.isSome_iff_exists.mp isAllocated with ⟨lastNode, found⟩
    refine ⟨_, _, by rw [pushLast, if_neg nonempty, hasLast, Option.bind_some, found,
      Option.map_some], ?_⟩
    exact
      { size := by
          have size := isQueue.size
          simp only [List.length_append] at size ⊢
          simp [size]
        first := by
          have first := isQueue.first
          cases front <;> simpa using first
        last := by simp
        linked := isQueue.linked.push found unused isQueue.distinct
        allocated := by
          intro address
          have before := isQueue.allocated address
          by_cases isNew : address = newNode
          · simp [isNew]
          · by_cases isLast : address = last
            · subst isLast
              simp [Function.update_of_ne isNew]
            · simp [Function.update_of_ne isLast, before, isNew]
        distinct }

theorem IsQueue.pop {heap : Heap Task} {queue : FifoQueue} {address : Address} {task : Task}
    {nodes : List (Address × Task)} (isQueue : IsQueue heap queue ((address, task) :: nodes)) :
    ∃ heapAfter queueAfter, popFirst heap queue = some (heapAfter, queueAfter, some task) ∧
      IsQueue heapAfter queueAfter nodes := by
  have size := isQueue.size
  rw [List.length_cons] at size
  have nonempty : queue.size ≠ 0 := by omega
  have hasFirst : queue.first = some address := isQueue.first
  have oldNode := isQueue.linked.1
  have unused : address ∉ nodes.map Prod.fst := (List.nodup_cons.mp isQueue.distinct).1
  have distinct : (nodes.map Prod.fst).Nodup := (List.nodup_cons.mp isQueue.distinct).2
  simp only [popFirst, if_neg nonempty, hasFirst, oldNode, Option.bind_some]
  cases nodes with
  | nil =>
      have single : queue.size - 1 = 0 := by
        rw [size]
        simp
      refine ⟨_, _, if_pos single, ?_⟩
      exact
        { size := single
          first := rfl
          last := rfl
          linked := trivial
          allocated := by
            intro other
            have before := isQueue.allocated other
            by_cases isOld : other = address <;> simp_all
          distinct }
  | cons second nodes =>
      have more : queue.size - 1 ≠ 0 := by
        rw [size, List.length_cons]
        omega
      have notOld : second.1 ≠ address := by
        intro same
        exact unused (by simp [← same])
      have secondNode : heap second.1 =
          some ⟨second.2, some address, nodes.head?.map Prod.fst⟩ := isQueue.linked.2.1
      refine ⟨_, _, by rw [if_neg more, List.head?_cons, Option.map_some, Option.bind_some,
        Function.update_of_ne notOld, secondNode, Option.map_some], ?_⟩
      exact
        { size := by
            rw [size]
            simp
          first := rfl
          last := by
            rw [isQueue.last]
            rfl
          linked := by
            refine ⟨by simp, ?_⟩
            apply isQueue.linked.2.2.congr
            intro other member
            have notSecond : other ≠ second.1 := by
              intro same
              exact (List.nodup_cons.mp distinct).1 (same ▸ member)
            have notFirst : other ≠ address := by
              intro same
              exact unused (List.mem_cons_of_mem _ (same ▸ member))
            rw [Function.update_of_ne notSecond, Function.update_of_ne notFirst]
          allocated := by
            intro other
            have before := isQueue.allocated other
            by_cases isSecond : other = second.1
            · simp [isSecond]
            · by_cases isOld : other = address
              · subst isOld
                simpa [Function.update_of_ne isSecond] using unused
              · simp [Function.update_of_ne isSecond, before, isOld]
          distinct }

end LetUsConnect
