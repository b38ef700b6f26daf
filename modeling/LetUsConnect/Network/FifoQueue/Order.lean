import LetUsConnect.Network.FifoQueue
import LetUsConnect.Lib.CString
import LetUsConnect.Lib.Chains
import LetUsConnect.Lib.Transition

/-!
# The order of the queue

Any sequence of calls on one queue, with the values they return and what the
variable of the caller holds. The tasks that were pushed and popped are recorded
beside them. In every state the pending tasks can be read off in both directions:
along `prev` from the head and, in reverse, along `next` from the tail. The size is
their number, and the `int` of the source holds it as long as it is below 2^31.
-/

namespace LetUsConnect

open CString Chains Transition

variable {Task : Type}

/-- `EMPTY_QUEUE`. -/
def emptyQueue : ℤ := 2

/-- A call on the queue, with the address `malloc` returns. -/
inductive FifoCall (Task : Type) where
  | pushLast (newNode : Address) (task : Task)
  | popFirst

/-- The queue and its heap, `*task` and the code of the last call, and the tasks so far. -/
structure FifoState (Task : Type) where
  heap : Heap Task
  queue : FifoQueue
  task : Option Task
  code : ℤ
  pushed : List Task
  popped : List Task

/-- The tasks not yet popped, the oldest one first. -/
def FifoState.pending (state : FifoState Task) : List Task := state.pushed.drop state.popped.length

/-- `push_last` on a queue in use. -/
def FifoState.push (state : FifoState Task) (newNode : Address) (task : Task) :
    Option (FifoState Task) :=
  (pushLast state.heap state.queue newNode task).map fun after =>
    { state with
      heap := after.1
      queue := after.2
      code := 0
      pushed := state.pushed ++ [task] }

/-- `pop_first` with the variable of the caller. -/
def FifoState.pop (state : FifoState Task) : Option (FifoState Task) :=
  (popFirst state.heap state.queue).map fun after =>
    match after with
    | (heap, queue, none) => { state with heap, queue, code := emptyQueue }
    | (heap, queue, some task) =>
        { state with heap, queue, task, code := 0, popped := state.popped ++ [task] }

/-- The calls on one queue after `fifo_queue_init`. -/
def fifoSystem (Task : Type) : System (FifoState Task) (FifoCall Task) where
  initial state := ∃ task code, state = ⟨fun _ => none, fifoQueueInit, task, code, [], []⟩
  step call state :=
    match call with
    | .pushLast newNode task =>
        if state.heap newNode = none then state.push newNode task else none
    | .popFirst => state.pop

/-! ## The two directions -/

/-- The pointers `prev` of the nodes. -/
def Heap.prevLinks (heap : Heap Task) : Links Address := fun node => (heap node).bind QueueNode.prev

/-- The pointers `next` of the nodes. -/
def Heap.nextLinks (heap : Heap Task) : Links Address := fun node => (heap node).bind QueueNode.next

variable {heap : Heap Task} {before : Option Address} {nodes : List (Address × Task)}

theorem Linked.prevChain (linked : Linked heap before nodes) :
    Chain heap.prevLinks (nodes.head?.map Prod.fst) (nodes.map Prod.fst) := by
  induction nodes generalizing before with
  | nil => rfl
  | cons node nodes ih =>
      refine ⟨rfl, ?_⟩
      rw [Heap.prevLinks, linked.1]
      exact ih linked.2

/-- Backwards the links lead to what comes before the nodes. -/
theorem Linked.nextSegment (linked : Linked heap before nodes) :
    Segment heap.nextLinks ((nodes.getLast?.map Prod.fst).or before) (nodes.map Prod.fst).reverse
      before := by
  induction nodes generalizing before with
  | nil => rfl
  | cons node nodes ih =>
      rw [List.map_cons, List.reverse_cons, segment_append_cons_iff]
      refine ⟨?_, ?_⟩
      · have rest := ih linked.2
        cases nodes with
        | nil => exact rest
        | cons second nodes => simpa [List.getLast?_cons] using rest
      · rw [Heap.nextLinks, linked.1]
        rfl

theorem Linked.nextChain (linked : Linked heap none nodes) :
    Chain heap.nextLinks (nodes.getLast?.map Prod.fst) (nodes.map Prod.fst).reverse := by
  have segment := linked.nextSegment
  rwa [Option.or_none] at segment

theorem Linked.task_eq (linked : Linked heap before nodes) :
    (nodes.map Prod.fst).map (fun node => (heap node).map QueueNode.task) =
      (nodes.map Prod.snd).map some := by
  induction nodes generalizing before with
  | nil => rfl
  | cons node nodes ih =>
      rw [List.map_cons, List.map_cons, List.map_cons, List.map_cons, linked.1, ih linked.2]
      rfl

/-! ## Runs -/

/-- The nodes at these places hold the pending tasks, linked in both directions. -/
structure FifoState.Lists (state : FifoState Task) (places : List Address) : Prop where
  order : state.popped ++ state.pending = state.pushed
  tasks : places.map (fun node => (state.heap node).map QueueNode.task) = state.pending.map some
  nodes : ∀ node, state.heap node ≠ none ↔ node ∈ places
  size : state.queue.size = places.length
  inRange : places.length < 2 ^ 31 → toInt state.queue.size = state.queue.size
  forwards : Chain state.heap.prevLinks state.queue.first places
  ends : places.getLast? = state.queue.last
  backwards : Chain state.heap.nextLinks state.queue.last places.reverse
  begins : places.reverse.getLast? = state.queue.first
  firstNull : state.queue.first = none ↔ state.queue.size = 0
  lastNull : state.queue.last = none ↔ state.queue.size = 0

/-- Heap and queue hold the pending tasks. -/
def FifoState.Related (state : FifoState Task) : Prop :=
  ∃ nodes, IsQueue state.heap state.queue nodes ∧
    state.pushed = state.popped ++ nodes.map Prod.snd

variable {state after : FifoState Task}

theorem FifoState.pending_eq {tasks : List Task} (pushed : state.pushed = state.popped ++ tasks) :
    state.pending = tasks := by
  rw [FifoState.pending, pushed, List.drop_left]

theorem FifoState.Related.lists (related : state.Related) : ∃ places, state.Lists places := by
  rcases related with ⟨nodes, isQueue, pushed⟩
  have pending := FifoState.pending_eq pushed
  refine ⟨nodes.map Prod.fst, ?_⟩
  exact
    { order := by rw [pending, pushed]
      tasks := by
        rw [pending]
        exact isQueue.linked.task_eq
      nodes := by
        intro node
        rw [← isQueue.allocated, Option.isSome_iff_ne_none]
      size := by rw [List.length_map, isQueue.size]
      inRange := by
        rw [List.length_map, isQueue.size]
        exact toInt_natCast
      forwards := by
        rw [isQueue.first]
        exact isQueue.linked.prevChain
      ends := by rw [List.getLast?_map, isQueue.last]
      backwards := by
        rw [isQueue.last]
        exact isQueue.linked.nextChain
      begins := by rw [List.getLast?_reverse, List.head?_map, isQueue.first]
      firstNull := by
        rw [isQueue.first, isQueue.size]
        simp
      lastNull := by
        rw [isQueue.last, isQueue.size]
        simp }

/-- A push is defined and appends the task. -/
theorem FifoState.Related.push (related : state.Related) {newNode : Address}
    (fresh : state.heap newNode = none) (task : Task) :
    ∃ after, state.push newNode task = some after ∧ after.code = 0 ∧
      after.pending = state.pending ++ [task] ∧ after.Related := by
  rcases related with ⟨nodes, isQueue, pushed⟩
  rcases isQueue.push fresh task with ⟨heap, queue, pushes, isQueueAfter⟩
  have pushedAfter : state.pushed ++ [task] =
      state.popped ++ (nodes ++ [(newNode, task)]).map Prod.snd := by
    rw [pushed, List.map_append, List.append_assoc]
    rfl
  refine ⟨_, by rw [FifoState.push, pushes, Option.map_some], rfl, ?_, _, isQueueAfter,
    pushedAfter⟩
  rw [FifoState.pending_eq pushedAfter, FifoState.pending_eq pushed, List.map_append]
  rfl

/-- On an empty queue a pop only returns its code. -/
theorem FifoState.Related.pop_empty (related : state.Related) (empty : state.pending = []) :
    state.pop = some { state with code := emptyQueue } := by
  rcases related with ⟨nodes, isQueue, pushed⟩
  rw [FifoState.pending_eq pushed, List.map_eq_nil_iff] at empty
  have size := isQueue.size
  rw [empty] at size
  rw [FifoState.pop, popFirst, if_pos (by simpa using size), Option.map_some]

/-- Otherwise it yields the oldest task. -/
theorem FifoState.Related.pop_cons (related : state.Related) {task : Task} {rest : List Task}
    (pending : state.pending = task :: rest) :
    ∃ after, state.pop = some after ∧ after.code = 0 ∧ after.task = some task ∧
      after.pending = rest ∧ after.Related := by
  rcases related with ⟨nodes, isQueue, pushed⟩
  rw [FifoState.pending_eq pushed] at pending
  cases nodes with
  | nil => cases pending
  | cons node nodes =>
      rw [List.map_cons, List.cons.injEq] at pending
      rcases pending with ⟨rfl, rfl⟩
      rcases isQueue.pop with ⟨heap, queue, pops, isQueueAfter⟩
      have pushedAfter : state.pushed = (state.popped ++ [node.2]) ++ nodes.map Prod.snd := by
        rw [pushed, List.map_cons, List.append_assoc]
        rfl
      exact ⟨_, by rw [FifoState.pop, pops, Option.map_some], rfl, rfl,
        FifoState.pending_eq pushedAfter, nodes, isQueueAfter, pushedAfter⟩

theorem related_of_fifoReachable (reached : (fifoSystem Task).Reachable state) :
    state.Related := by
  apply System.Reachable.invariant _ _ reached
  · rintro state ⟨task, code, rfl⟩
    exact ⟨[], isQueue_init, rfl⟩
  · intro state call after related taken
    cases call with
    | pushLast newNode task =>
        dsimp only [fifoSystem] at taken
        by_cases fresh : state.heap newNode = none
        · rw [if_pos fresh] at taken
          rcases related.push fresh task with ⟨same, pushed, -, -, afterRelated⟩
          rw [pushed] at taken
          exact Option.some.inj taken ▸ afterRelated
        · rw [if_neg fresh] at taken
          cases taken
    | popFirst =>
        dsimp only [fifoSystem] at taken
        cases pending : state.pending with
        | nil =>
            rw [related.pop_empty pending] at taken
            rw [← Option.some.inj taken]
            exact related
        | cons task rest =>
            rcases related.pop_cons pending with ⟨same, popped, -, -, -, afterRelated⟩
            rw [popped] at taken
            exact Option.some.inj taken ▸ afterRelated

/--
After any calls the queue lists the pending tasks, and every next call is defined:
a push appends its task, and a pop yields the oldest pending task or, without one,
leaves queue and variable as they are.
-/
theorem queue_is_fifo (reached : (fifoSystem Task).Reachable state) :
    (∃ places, state.Lists places) ∧
      (∀ newNode task, state.heap newNode = none →
        ∃ after, (fifoSystem Task).step (.pushLast newNode task) state = some after ∧
          after.code = 0 ∧ after.pending = state.pending ++ [task]) ∧
      ∃ after, (fifoSystem Task).step .popFirst state = some after ∧
        match state.pending with
        | [] => after = { state with code := emptyQueue }
        | task :: rest => after.code = 0 ∧ after.task = some task ∧ after.pending = rest := by
  have related := related_of_fifoReachable reached
  refine ⟨related.lists, ?_, ?_⟩
  · intro newNode task fresh
    rcases related.push fresh task with ⟨after, pushed, code, pending, -⟩
    refine ⟨after, ?_, code, pending⟩
    dsimp only [fifoSystem]
    rw [if_pos fresh, pushed]
  · cases isPending : state.pending with
    | nil => exact ⟨_, related.pop_empty isPending, rfl⟩
    | cons task rest =>
        rcases related.pop_cons isPending with ⟨after, popped, code, taken, pending, -⟩
        exact ⟨after, popped, code, taken, pending⟩

/-- Two tasks are pushed and one is popped. -/
theorem pushTwoPopOne_isFifo :
    ∃ state : FifoState ℕ, (fifoSystem ℕ).run [.pushLast 5 10, .pushLast 3 11, .popFirst]
        ⟨fun _ => none, fifoQueueInit, none, 0, [], []⟩ = some state ∧
      state.task = some 10 ∧ state.pending = [11] ∧ ∃ places, state.Lists places := by
  have ends : ∃ state : FifoState ℕ,
      (fifoSystem ℕ).run [.pushLast 5 10, .pushLast 3 11, .popFirst]
        ⟨fun _ => none, fifoQueueInit, none, 0, [], []⟩ = some state ∧
      state.task = some 10 ∧ state.pending = [11] := ⟨_, rfl, rfl, rfl⟩
  rcases ends with ⟨state, ran, task, pending⟩
  exact ⟨state, ran, task, pending, (queue_is_fifo (.run (.start ⟨_, _, rfl⟩) ran)).1⟩

end LetUsConnect
