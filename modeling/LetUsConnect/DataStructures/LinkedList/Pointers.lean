import LetUsConnect.DataStructures.LinkedList
import LetUsConnect.Lib.Chains

/-!
# The linked list in memory

The functions of `DataStructures/Lists/LinkedList.c` once more, now with every
pointer they follow and store. The memory maps the allocated blocks to what they
hold; following a pointer to anything but a node is undefined, as is freeing a
block that is not allocated.

`Holds` says which nodes a list consists of, in the terms of `LinkedList`. Under
it every operation is defined and acts on the nodes as on a sequence.
-/

namespace LetUsConnect

open Chains

/-- `struct Node`. -/
structure StructNode (Block : Type) where
  data : Option Block
  next : Option Block
  previous : Option Block

/-- What an allocated block holds. The data copied into a list may itself be a `struct Node`. -/
inductive Cell (Block Data : Type) where
  | node (node : StructNode Block)
  | data (content : Data)

/-- The contents of the allocated blocks. -/
abbrev Memory (Block Data : Type) := Block → Option (Cell Block Data)

namespace Memory

variable {Block Data : Type}

/-- The node a pointer leads to; there is none behind `NULL`. -/
def nodeAt (memory : Memory Block Data) : Option Block → Option (StructNode Block)
  | none => none
  | some block =>
      match memory block with
      | some (.node node) => some node
      | _ => none

/-- The pointer `next` of the node in a block. -/
def next (memory : Memory Block Data) : Links Block :=
  fun block => (memory.nodeAt (some block)).bind StructNode.next

/-- Follows `next` that many times. -/
def follow (memory : Memory Block Data) : ℕ → Option Block → Option (Option Block)
  | 0, cursor => some cursor
  | count + 1, cursor => (memory.nodeAt cursor).bind fun node => memory.follow count node.next

variable [DecidableEq Block]

/-- `pointer->next = link`. -/
def setNext (memory : Memory Block Data) (pointer link : Option Block) :
    Option (Memory Block Data) :=
  pointer.bind fun block =>
    (memory.nodeAt (some block)).map fun node =>
      Function.update memory block (some (.node { node with next := link }))

/-- `free(pointer)`, which does nothing for `NULL`. -/
def free (memory : Memory Block Data) : Option Block → Option (Memory Block Data)
  | none => some memory
  | some block => (memory block).map fun _ => Function.update memory block none

/-- `create_node_ll`, with the blocks `malloc` returned for the node and for the data. -/
def createNodeLl (memory : Memory Block Data) (newNode newData : Block)
    (content : Cell Block Data) : Memory Block Data :=
  Function.update (Function.update memory newData (some content)) newNode
    (some (.node ⟨some newData, none, none⟩))

/-- `destroy_node_ll`. -/
def destroyNodeLl (memory : Memory Block Data) (nodeToDestroy : Option Block) :
    Option (Memory Block Data) :=
  (memory.nodeAt nodeToDestroy).bind fun node =>
    (memory.free node.data).bind fun memory => memory.free nodeToDestroy

end Memory

/-- `struct LinkedList` and the memory it points into. -/
structure PointerList (Block Data : Type) where
  memory : Memory Block Data
  head : Option Block
  length : ℤ

namespace PointerList

variable {Block Data : Type}

/-- `linked_list_constructor`. -/
def constructor (memory : Memory Block Data) : PointerList Block Data := ⟨memory, none, 0⟩

/-- `iterate_ll`. -/
def iterateLl (list : PointerList Block Data) (index : ℤ) : Option (Option Block) :=
  if index < 0 ∨ list.length ≤ index then some none
  else list.memory.follow index.toNat list.head

/-- `retrieve_ll`. -/
def retrieveLl (list : PointerList Block Data) (index : ℤ) : Option (Option Block) :=
  (list.iterateLl index).bind fun cursor =>
    match cursor with
    | none => some none
    | some block => (list.memory.nodeAt (some block)).map StructNode.data

variable [DecidableEq Block]

/-- `insert_ll`, with the blocks `malloc` returned. -/
def insertLl (list : PointerList Block Data) (index : ℤ) (newNode newData : Block)
    (content : Cell Block Data) : Option (PointerList Block Data) :=
  let created := { list with memory := list.memory.createNodeLl newNode newData content }
  if index = 0 then
    (created.memory.setNext (some newNode) list.head).map fun memory =>
      ⟨memory, some newNode, list.length + 1⟩
  else
    (created.iterateLl (index - 1)).bind fun cursor =>
      (created.memory.nodeAt cursor).bind fun node =>
        (created.memory.setNext (some newNode) node.next).bind fun memory =>
          (memory.setNext cursor (some newNode)).map fun memory =>
            ⟨memory, list.head, list.length + 1⟩

/-- `remove_node_ll`; without a node to remove it still counts the length down. -/
def removeNodeLl (list : PointerList Block Data) (index : ℤ) : Option (PointerList Block Data) :=
  if index = 0 then
    match list.head with
    | none => some { list with length := list.length - 1 }
    | some nodeToRemove =>
        (list.memory.nodeAt (some nodeToRemove)).bind fun node =>
          (list.memory.destroyNodeLl (some nodeToRemove)).map fun memory =>
            ⟨memory, node.next, list.length - 1⟩
  else
    (list.iterateLl (index - 1)).bind fun cursor =>
      (list.memory.nodeAt cursor).bind fun node =>
        (list.memory.nodeAt node.next).bind fun nodeToRemove =>
          (list.memory.setNext cursor nodeToRemove.next).bind fun memory =>
            (memory.destroyNodeLl node.next).map fun memory =>
              ⟨memory, list.head, list.length - 1⟩

end PointerList

/-! ## The nodes of a list -/

variable {Block Data : Type}

/-- A node of a list in memory, with what its data block holds. -/
abbrev ListNode (Block Data : Type) := HeapNode Block (Cell Block Data)

/-- The two blocks of a node. -/
def HeapNode.blocks (node : HeapNode Block Data) : List Block := [node.node, node.data.block]

/-- The node and its data are in the memory. -/
structure Memory.Stores (memory : Memory Block Data) (node : ListNode Block Data) : Prop where
  isNode : ∃ link previous, memory node.node = some (.node ⟨some node.data.block, link, previous⟩)
  isData : memory node.data.block = some node.data.content

/-- The list consists of these nodes; all their blocks are different. -/
structure PointerList.Holds (list : PointerList Block Data) (nodes : List (ListNode Block Data)) :
    Prop where
  chain : Chain list.memory.next list.head (nodes.map HeapNode.node)
  length : list.length = nodes.length
  stored : ∀ node ∈ nodes, list.memory.Stores node
  distinct : (nodes.flatMap HeapNode.blocks).Nodup

namespace Memory

variable {memory other : Memory Block Data} {node : ListNode Block Data} {start : Option Block}
  {nodes : List (ListNode Block Data)}

theorem Stores.congr (stores : memory.Stores node) (sameNode : other node.node = memory node.node)
    (sameData : other node.data.block = memory node.data.block) : other.Stores node :=
  ⟨sameNode ▸ stores.isNode, sameData ▸ stores.isData⟩

theorem next_congr {block : Block} (same : other block = memory block) :
    other.next block = memory.next block := by
  simp only [next, nodeAt, same]

theorem nodeAt_of_eq {block : Block} {found : StructNode Block}
    (holds : memory block = some (.node found)) : memory.nodeAt (some block) = some found := by
  simp only [nodeAt, holds]

theorem next_of_eq {block : Block} {found : StructNode Block}
    (holds : memory block = some (.node found)) : memory.next block = found.next := by
  rw [next, nodeAt_of_eq holds, Option.bind_some]

/-- The node as it stands in the memory. -/
theorem Stores.nodeAt (stores : memory.Stores node) :
    ∃ previous, memory.nodeAt (some node.node) =
      some ⟨some node.data.block, memory.next node.node, previous⟩ := by
  rcases stores.isNode with ⟨link, previous, holds⟩
  exact ⟨previous, by rw [nodeAt_of_eq holds, next_of_eq holds]⟩

theorem Stores.allocated (stores : memory.Stores node) {block : Block}
    (member : block ∈ node.blocks) : memory block ≠ none := by
  rcases stores.isNode with ⟨link, previous, holds⟩
  rcases List.mem_pair.mp member with rfl | rfl
  · simp [holds]
  · simp [stores.isData]

/-- Along a chain of nodes every pointer can be followed. -/
theorem follow_eq (chain : Chain memory.next start (nodes.map HeapNode.node))
    (stored : ∀ node ∈ nodes, memory.Stores node) {count : ℕ} (within : count ≤ nodes.length) :
    memory.follow count start = some ((nodes.map HeapNode.node)[count]?) := by
  induction count generalizing start nodes with
  | zero => rw [follow, chain.head_eq, List.head?_eq_getElem?]
  | succ count ih =>
      cases nodes with
      | nil => simp at within
      | cons node nodes =>
          rw [List.length_cons] at within
          rcases (stored node List.mem_cons_self).nodeAt with ⟨previous, found⟩
          rw [follow, chain.1, found, Option.bind_some, List.map_cons, List.getElem?_cons_succ]
          apply ih chain.2 _ (by omega)
          exact fun later member => stored later (List.mem_cons_of_mem _ member)

end Memory

/-- The blocks of one node are apart from those of the others. -/
theorem nodup_blocks_append_cons_iff {front rest : List (HeapNode Block Data)}
    {node : HeapNode Block Data} :
    ((front ++ node :: rest).flatMap HeapNode.blocks).Nodup ↔
      node.node ≠ node.data.block ∧
        (∀ other ∈ front ++ rest, ∀ block ∈ other.blocks,
          block ≠ node.node ∧ block ≠ node.data.block) ∧
        ((front ++ rest).flatMap HeapNode.blocks).Nodup := by
  have moved : ((front ++ node :: rest).flatMap HeapNode.blocks).Perm
      (node.blocks ++ (front ++ rest).flatMap HeapNode.blocks) := by
    rw [← List.flatMap_cons]
    exact List.perm_middle.flatMap_right _
  rw [moved.nodup_iff, List.nodup_append]
  simp only [HeapNode.blocks, List.nodup_cons, List.not_mem_nil, not_false_eq_true,
    List.nodup_nil, and_true, List.mem_flatMap, List.mem_cons, or_false]
  constructor
  · rintro ⟨apart, distinct, disjoint⟩
    refine ⟨apart, ?_, distinct⟩
    intro other member block isBlock
    exact ⟨(disjoint _ (.inl rfl) block ⟨other, member, isBlock⟩).symm,
      (disjoint _ (.inr rfl) block ⟨other, member, isBlock⟩).symm⟩
  · rintro ⟨apart, disjoint, distinct⟩
    refine ⟨apart, distinct, ?_⟩
    rintro block isBlock later ⟨other, member, isLater⟩
    rcases isBlock with rfl | rfl
    · exact (disjoint other member later isLater).1.symm
    · exact (disjoint other member later isLater).2.symm

namespace PointerList

variable {list : PointerList Block Data} {nodes front rest : List (ListNode Block Data)}
  {node removed : ListNode Block Data}

theorem holds_constructor (memory : Memory Block Data) : (constructor memory).Holds [] where
  chain := rfl
  length := rfl
  stored := by simp
  distinct := List.nodup_nil

/-! ## Finding a position -/

theorem Holds.iterateLl_eq (holds : list.Holds nodes) {index : ℕ} (within : index < nodes.length) :
    list.iterateLl index = some (some nodes[index].node) := by
  have length_eq := holds.length
  rw [iterateLl, if_neg (by omega), Int.toNat_natCast,
    Memory.follow_eq holds.chain holds.stored (Nat.le_of_lt within)]
  simp [within]

theorem Holds.iterateLl_out (holds : list.Holds nodes) {index : ℤ}
    (outside : index < 0 ∨ nodes.length ≤ index) : list.iterateLl index = some none := by
  rw [iterateLl, holds.length, if_pos outside]

/-- The data pointer at an index of the list. -/
theorem Holds.retrieveLl_eq (holds : list.Holds nodes) {index : ℕ}
    (within : index < nodes.length) :
    list.retrieveLl index = some (some nodes[index].data.block) := by
  rcases (holds.stored _ (List.getElem_mem within)).nodeAt with ⟨previous, found⟩
  rw [retrieveLl, holds.iterateLl_eq within, Option.bind_some]
  dsimp only
  rw [found]
  rfl

theorem Holds.retrieveLl_out (holds : list.Holds nodes) {index : ℤ}
    (outside : index < 0 ∨ nodes.length ≤ index) : list.retrieveLl index = some none := by
  rw [retrieveLl, holds.iterateLl_out outside, Option.bind_some]

/-- The position before the last of `index + 1` nodes. -/
theorem exists_split {index : ℕ} (within : index < nodes.length) :
    ∃ front rest, nodes = front ++ nodes[index] :: rest ∧ front.length = index := by
  refine ⟨nodes.take index, nodes.drop (index + 1), ?_, by simp; omega⟩
  rw [List.getElem_cons_drop, List.take_append_drop]

theorem insertIdx_split (new : ListNode Block Data) :
    (front ++ node :: rest).insertIdx (front.length + 1) new = front ++ node :: new :: rest := by
  induction front with
  | nil => rfl
  | cons first front ih =>
      rw [List.cons_append, List.length_cons, List.insertIdx_succ_cons, ih]
      rfl

theorem eraseIdx_split :
    (front ++ node :: removed :: rest).eraseIdx (front.length + 1) = front ++ node :: rest := by
  rw [List.eraseIdx_append_of_length_le (by omega)]
  simp

theorem mem_blocks_node (node : ListNode Block Data) : node.node ∈ node.blocks := by
  simp [HeapNode.blocks]

theorem mem_blocks_data (node : ListNode Block Data) : node.data.block ∈ node.blocks := by
  simp [HeapNode.blocks]

theorem mem_append_cons_iff {other : ListNode Block Data} :
    other ∈ front ++ node :: rest ↔ other = node ∨ other ∈ front ++ rest :=
  List.perm_middle.mem_iff.trans List.mem_cons

/-- Another memory has the same in the blocks of the nodes. -/
def Keeps (list : PointerList Block Data) (memory : Memory Block Data)
    (nodes : List (ListNode Block Data)) : Prop :=
  ∀ node ∈ nodes, ∀ block ∈ node.blocks, memory block = list.memory block

section Keeps

variable {memory : Memory Block Data}

theorem Keeps.next (keeps : list.Keeps memory nodes) :
    ∀ block ∈ nodes.map HeapNode.node, memory.next block = list.memory.next block := by
  intro block member
  rcases List.mem_map.mp member with ⟨node, nodeIn, rfl⟩
  exact Memory.next_congr (keeps node nodeIn _ (mem_blocks_node node))

theorem Keeps.stores (keeps : list.Keeps memory nodes) (member : node ∈ nodes)
    (stores : list.memory.Stores node) : memory.Stores node :=
  stores.congr (keeps node member _ (mem_blocks_node node))
    (keeps node member _ (mem_blocks_data node))

end Keeps

/-- The list is the same in a memory that has the same in its blocks. -/
theorem Holds.congr (holds : list.Holds nodes) {memory : Memory Block Data}
    (keeps : list.Keeps memory nodes) :
    ({ list with memory } : PointerList Block Data).Holds nodes where
  chain := holds.chain.congr keeps.next
  length := holds.length
  stored := fun node member => keeps.stores member (holds.stored node member)
  distinct := holds.distinct

/-! ## Insertion -/

/-- What `malloc` promises about the two blocks of a node. -/
structure Fresh (list : PointerList Block Data) (newNode newData : Block) : Prop where
  node : list.memory newNode = none
  data : list.memory newData = none
  apart : newNode ≠ newData

/-- The node that an insertion adds. -/
def newListNode (newNode newData : Block) (content : Cell Block Data) : ListNode Block Data :=
  ⟨newNode, ⟨newData, content⟩⟩

/-- The blocks of the nodes are not those `malloc` returned. -/
theorem Holds.apart_of_fresh {newNode newData : Block} (holds : list.Holds nodes)
    (fresh : list.Fresh newNode newData) (member : node ∈ nodes) :
    ∀ block ∈ node.blocks, block ≠ newNode ∧ block ≠ newData := by
  intro block isBlock
  have allocated := (holds.stored node member).allocated isBlock
  constructor
  · rintro rfl
    exact allocated fresh.node
  · rintro rfl
    exact allocated fresh.data

/-- A new node at the head. -/
theorem Holds.linkHead (holds : list.Holds nodes) {new : ListNode Block Data}
    (fresh : list.Fresh new.node new.data.block) {memory : Memory Block Data}
    (same : ∀ block, block ≠ new.node → block ≠ new.data.block → memory block = list.memory block)
    (isNode : memory new.node = some (.node ⟨some new.data.block, list.head, none⟩))
    (isData : memory new.data.block = some new.data.content) :
    (⟨memory, some new.node, list.length + 1⟩ : PointerList Block Data).Holds (new :: nodes) := by
  have keeps : list.Keeps memory nodes := by
    intro node member block isBlock
    have apart := holds.apart_of_fresh fresh member block isBlock
    exact same block apart.1 apart.2
  exact
    { chain := by
        refine ⟨rfl, ?_⟩
        rw [Memory.next_of_eq isNode]
        exact holds.chain.congr keeps.next
      length := by simp [holds.length]
      stored := by
        intro node member
        rcases List.mem_cons.mp member with rfl | nodeIn
        · exact ⟨⟨_, _, isNode⟩, isData⟩
        · exact keeps.stores nodeIn (holds.stored node nodeIn)
      distinct := by
        apply (@nodup_blocks_append_cons_iff _ _ [] nodes new).mpr
        exact ⟨fresh.apart, fun other member => holds.apart_of_fresh fresh member, holds.distinct⟩ }

/-- A new node after another one, which is relinked to it. -/
theorem Holds.linkAfter (holds : list.Holds (front ++ node :: rest)) {new : ListNode Block Data}
    (fresh : list.Fresh new.node new.data.block) {memory : Memory Block Data}
    (same : ∀ block, block ≠ new.node → block ≠ new.data.block → block ≠ node.node →
      memory block = list.memory block)
    (isNode : memory new.node =
      some (.node ⟨some new.data.block, list.memory.next node.node, none⟩))
    (isData : memory new.data.block = some new.data.content)
    (relinked : ∃ previous, memory node.node =
      some (.node ⟨some node.data.block, some new.node, previous⟩)) :
    (⟨memory, list.head, list.length + 1⟩ : PointerList Block Data).Holds
      (front ++ node :: new :: rest) := by
  rcases relinked with ⟨previous, relinked⟩
  have split := nodup_blocks_append_cons_iff.mp holds.distinct
  have nodeIn : node ∈ front ++ node :: rest := by simp
  have nodeApart := holds.apart_of_fresh fresh nodeIn
  have keeps : list.Keeps memory (front ++ rest) := by
    intro other member block isBlock
    have apart := holds.apart_of_fresh fresh (mem_append_cons_iff.mpr (.inr member)) block isBlock
    exact same block apart.1 apart.2 (split.2.1 other member block isBlock).1
  exact
    { chain := by
        have chain := holds.chain
        rw [List.map_append, List.map_cons] at chain
        rw [List.map_append, List.map_cons, List.map_cons]
        apply chain.insertAfter
        · exact Memory.next_of_eq relinked
        · exact Memory.next_of_eq isNode
        · rw [← List.map_append]
          exact keeps.next
      length := by
        simp only [holds.length, List.length_append, List.length_cons]
        push_cast
        ring
      stored := by
        intro other member
        rw [mem_append_cons_iff, mem_append_cons_iff] at member
        rcases member with rfl | rfl | otherIn
        · have dataApart := nodeApart _ (mem_blocks_data other)
          have keptData := same _ dataApart.1 dataApart.2 split.1.symm
          exact ⟨⟨_, _, relinked⟩, keptData.trans (holds.stored other nodeIn).isData⟩
        · exact ⟨⟨_, _, isNode⟩, isData⟩
        · exact keeps.stores otherIn (holds.stored other (mem_append_cons_iff.mpr (.inr otherIn)))
      distinct := by
        have isSplit : front ++ node :: new :: rest = (front ++ [node]) ++ new :: rest := by simp
        rw [isSplit, nodup_blocks_append_cons_iff]
        have isWhole : front ++ [node] ++ rest = front ++ node :: rest := by simp
        rw [isWhole]
        exact ⟨fresh.apart, fun other member => holds.apart_of_fresh fresh member,
          holds.distinct⟩ }

section Insertion

variable [DecidableEq Block] {newNode newData : Block} {content : Cell Block Data}

theorem createNodeLl_of_ne {memory : Memory Block Data} {block : Block} (notNode : block ≠ newNode)
    (notData : block ≠ newData) :
    memory.createNodeLl newNode newData content block = memory block := by
  rw [Memory.createNodeLl, Function.update_of_ne notNode, Function.update_of_ne notData]

theorem createNodeLl_node {memory : Memory Block Data} :
    memory.createNodeLl newNode newData content newNode =
      some (.node ⟨some newData, none, none⟩) := by
  rw [Memory.createNodeLl, Function.update_self]

theorem createNodeLl_data {memory : Memory Block Data} (apart : newNode ≠ newData) :
    memory.createNodeLl newNode newData content newData = some content := by
  rw [Memory.createNodeLl, Function.update_of_ne apart.symm, Function.update_self]

theorem setNext_eq {memory : Memory Block Data} {block : Block} {found : StructNode Block}
    (holds : memory block = some (.node found)) (link : Option Block) :
    memory.setNext (some block) link =
      some (Function.update memory block (some (.node { found with next := link }))) := by
  rw [Memory.setNext, Option.bind_some, Memory.nodeAt_of_eq holds]
  rfl

/-- The list is as it was while the new node is prepared. -/
theorem Holds.created (holds : list.Holds nodes) (fresh : list.Fresh newNode newData)
    (content : Cell Block Data) :
    ({ list with memory := list.memory.createNodeLl newNode newData content } :
      PointerList Block Data).Holds nodes := by
  have keeps : list.Keeps (list.memory.createNodeLl newNode newData content) nodes := by
    intro node member block isBlock
    have apart := holds.apart_of_fresh fresh member block isBlock
    exact createNodeLl_of_ne apart.1 apart.2
  exact
    { chain := holds.chain.congr keeps.next
      length := holds.length
      stored := fun node member => keeps.stores member (holds.stored node member)
      distinct := holds.distinct }

theorem Holds.insertLl_zero (holds : list.Holds nodes) (fresh : list.Fresh newNode newData)
    (content : Cell Block Data) :
    ∃ after, list.insertLl 0 newNode newData content = some after ∧
      after.Holds (newListNode newNode newData content :: nodes) := by
  have prepared := setNext_eq (@createNodeLl_node Block Data _ newNode newData content list.memory)
    list.head
  refine ⟨_, by rw [insertLl, if_pos rfl, prepared]; rfl, ?_⟩
  apply @Holds.linkHead _ _ _ _ holds (newListNode newNode newData content) fresh
  · intro block notNode notData
    exact (Function.update_of_ne notNode _ _).trans (createNodeLl_of_ne notNode notData)
  · exact Function.update_self _ _ _
  · exact (Function.update_of_ne fresh.apart.symm _ _).trans (createNodeLl_data fresh.apart)

theorem Holds.insertLl_succ (holds : list.Holds (front ++ node :: rest))
    (fresh : list.Fresh newNode newData) (content : Cell Block Data) :
    ∃ after, list.insertLl (front.length + 1) newNode newData content = some after ∧
      after.Holds (front ++ node :: newListNode newNode newData content :: rest) := by
  have nodeIn : node ∈ front ++ node :: rest := by simp
  have apart := holds.apart_of_fresh fresh nodeIn _ (mem_blocks_node node)
  have found := (holds.created fresh content).iterateLl_eq
    (show front.length < (front ++ node :: rest).length by simp)
  rw [List.getElem_append_right le_rfl] at found
  simp only [Nat.sub_self, List.getElem_cons_zero] at found
  rcases (holds.stored node nodeIn).isNode with ⟨link, previous, isNode⟩
  have inCreated : list.memory.createNodeLl newNode newData content node.node =
      some (.node ⟨some node.data.block, link, previous⟩) :=
    (createNodeLl_of_ne apart.1 apart.2).trans isNode
  have prepared := setNext_eq (@createNodeLl_node Block Data _ newNode newData content list.memory)
    link
  have inPrepared := (Function.update_of_ne apart.1 (some (Cell.node ⟨some newData, link, none⟩))
    (list.memory.createNodeLl newNode newData content)).trans inCreated
  refine ⟨⟨Function.update (Function.update (list.memory.createNodeLl newNode newData content)
      newNode (some (.node ⟨some newData, link, none⟩))) node.node
      (some (.node ⟨some node.data.block, some newNode, previous⟩)),
    list.head, list.length + 1⟩, ?_, ?_⟩
  · rw [insertLl, if_neg (by omega), add_sub_cancel_right, found, Option.bind_some,
      Memory.nodeAt_of_eq inCreated, Option.bind_some, prepared, Option.bind_some,
      setNext_eq inPrepared]
    rfl
  · apply @Holds.linkAfter _ _ _ _ _ _ holds (newListNode newNode newData content) fresh
    · intro block notNode notData notPlace
      rw [Function.update_of_ne notPlace]
      exact (Function.update_of_ne notNode _ _).trans (createNodeLl_of_ne notNode notData)
    · rw [Memory.next_of_eq isNode]
      exact (Function.update_of_ne apart.1.symm _ _).trans (Function.update_self _ _ _)
    · have keptData : newData ≠ newNode := fresh.apart.symm
      exact (Function.update_of_ne apart.2.symm _ _).trans
        ((Function.update_of_ne keptData _ _).trans (createNodeLl_data fresh.apart))
    · exact ⟨previous, Function.update_self _ _ _⟩

/-- An insertion at a valid position adds one node there. -/
theorem Holds.insertLl (holds : list.Holds nodes) (fresh : list.Fresh newNode newData)
    {index : ℕ} (within : index ≤ nodes.length) (content : Cell Block Data) :
    ∃ after, list.insertLl index newNode newData content = some after ∧
      after.Holds (nodes.insertIdx index (newListNode newNode newData content)) := by
  cases index with
  | zero => exact holds.insertLl_zero fresh content
  | succ index =>
      rcases exists_split within with ⟨front, rest, split, rfl⟩
      rw [split] at holds ⊢
      rw [insertIdx_split]
      exact holds.insertLl_succ fresh content

theorem setNext_frame {memory after : Memory Block Data} {pointer link : Option Block}
    (set : memory.setNext pointer link = some after) {block : Block}
    (apart : pointer ≠ some block) : after block = memory block := by
  rw [Memory.setNext, Option.bind_eq_some_iff] at set
  rcases set with ⟨place, isPlace, set⟩
  rw [Option.map_eq_some_iff] at set
  rcases set with ⟨found, -, rfl⟩
  apply Function.update_of_ne
  rintro rfl
  exact apart isPlace

/-- An insertion writes to the new blocks and to a node of the list. -/
theorem Holds.insertLl_frame (holds : list.Holds nodes) (fresh : list.Fresh newNode newData)
    {index : ℤ} {after : PointerList Block Data}
    (inserted : list.insertLl index newNode newData content = some after) {block : Block}
    (outside : ∀ node ∈ nodes, block ≠ node.node) (notNode : block ≠ newNode)
    (notData : block ≠ newData) : after.memory block = list.memory block := by
  have created : list.memory.createNodeLl newNode newData content block = list.memory block :=
    createNodeLl_of_ne notNode notData
  rw [← created]
  rw [PointerList.insertLl] at inserted
  split_ifs at inserted
  · rw [Option.map_eq_some_iff] at inserted
    rcases inserted with ⟨memory, linked, rfl⟩
    exact setNext_frame linked (by simpa using notNode.symm)
  · simp only [Option.bind_eq_some_iff, Option.map_eq_some_iff] at inserted
    rcases inserted with ⟨cursor, iterated, found, isFound, memory, linked, last, relinked, rfl⟩
    have notCursor : cursor ≠ some block := by
      rintro rfl
      by_cases inside : 0 ≤ index - 1 ∧ index - 1 < nodes.length
      · have within : (index - 1).toNat < nodes.length := by omega
        have same := (holds.created fresh content).iterateLl_eq within
        rw [Int.toNat_of_nonneg inside.1, iterated, Option.some.injEq, Option.some.injEq] at same
        exact outside _ (List.getElem_mem within) same
      · rw [(holds.created fresh content).iterateLl_out (by omega)] at iterated
        cases iterated
    exact (setNext_frame relinked notCursor).trans
      (setNext_frame linked (by simpa using notNode.symm))

end Insertion

/-! ## Removal -/

/-- The head drops out. -/
theorem Holds.unlinkHead (holds : list.Holds (removed :: rest)) {memory : Memory Block Data}
    (same : ∀ block, block ≠ removed.node → block ≠ removed.data.block →
      memory block = list.memory block) :
    (⟨memory, list.memory.next removed.node, list.length - 1⟩ : PointerList Block Data).Holds
      rest := by
  have split := (@nodup_blocks_append_cons_iff _ _ [] rest removed).mp holds.distinct
  have keeps : list.Keeps memory rest := by
    intro node member block isBlock
    have apart := split.2.1 node member block isBlock
    exact same block apart.1 apart.2
  exact
    { chain := holds.chain.2.congr keeps.next
      length := by simp [holds.length]
      stored := by
        intro node member
        exact keeps.stores member (holds.stored node (List.mem_cons_of_mem _ member))
      distinct := split.2.2 }

/-- The blocks of a node with one before it are apart from those of the others. -/
theorem Holds.split_after (holds : list.Holds (front ++ node :: removed :: rest)) :
    removed.node ≠ removed.data.block ∧
      (∀ other ∈ front ++ node :: rest, ∀ block ∈ other.blocks,
        block ≠ removed.node ∧ block ≠ removed.data.block) ∧
      ((front ++ node :: rest).flatMap HeapNode.blocks).Nodup := by
  have isSplit : front ++ node :: removed :: rest = (front ++ [node]) ++ removed :: rest := by simp
  have isWhole : front ++ [node] ++ rest = front ++ node :: rest := by simp
  have split := nodup_blocks_append_cons_iff.mp (isSplit ▸ holds.distinct)
  rwa [isWhole] at split

/-- The node after one that is relinked drops out. -/
theorem Holds.unlinkAfter (holds : list.Holds (front ++ node :: removed :: rest))
    {memory : Memory Block Data}
    (same : ∀ block, block ≠ removed.node → block ≠ removed.data.block → block ≠ node.node →
      memory block = list.memory block)
    (relinked : ∃ previous, memory node.node =
      some (.node ⟨some node.data.block, list.memory.next removed.node, previous⟩)) :
    (⟨memory, list.head, list.length - 1⟩ : PointerList Block Data).Holds
      (front ++ node :: rest) := by
  rcases relinked with ⟨previous, relinked⟩
  have outer := holds.split_after
  have inner := nodup_blocks_append_cons_iff.mp outer.2.2
  have stored : ∀ other ∈ front ++ node :: rest, list.memory.Stores other := by
    intro other member
    apply holds.stored
    rw [mem_append_cons_iff] at member ⊢
    exact member.imp id fun otherIn => mem_append_cons_iff.mpr (.inr otherIn)
  have nodeIn : node ∈ front ++ node :: rest := mem_append_cons_iff.mpr (.inl rfl)
  have nodeApart := outer.2.1 node nodeIn
  have keeps : list.Keeps memory (front ++ rest) := by
    intro other member block isBlock
    have apart := outer.2.1 other (mem_append_cons_iff.mpr (.inr member)) block isBlock
    exact same block apart.1 apart.2 (inner.2.1 other member block isBlock).1
  exact
    { chain := by
        have chain := holds.chain
        rw [List.map_append, List.map_cons, List.map_cons] at chain
        rw [List.map_append, List.map_cons]
        apply chain.removeAfter (Memory.next_of_eq relinked)
        rw [← List.map_append]
        exact keeps.next
      length := by
        simp only [holds.length, List.length_append, List.length_cons]
        push_cast
        ring
      stored := by
        intro other member
        rcases mem_append_cons_iff.mp member with rfl | otherIn
        · have dataApart := nodeApart _ (mem_blocks_data other)
          have keptData := same _ dataApart.1 dataApart.2 inner.1.symm
          exact ⟨⟨_, _, relinked⟩, keptData.trans (stored other member).isData⟩
        · exact keeps.stores otherIn (stored other member)
      distinct := outer.2.2 }

section Removal

variable [DecidableEq Block]

/-- Freeing a node frees its two blocks and leaves the others as they were. -/
theorem destroyNodeLl_spec {memory : Memory Block Data} (stores : memory.Stores node)
    (apart : node.node ≠ node.data.block) :
    ∃ after, memory.destroyNodeLl (some node.node) = some after ∧
      ∀ block, after block = if block ∈ node.blocks then none else memory block := by
  rcases stores.nodeAt with ⟨previous, found⟩
  rcases stores.isNode with ⟨link, back, isNode⟩
  have kept : Function.update memory node.data.block none node.node =
      some (.node ⟨some node.data.block, link, back⟩) :=
    (Function.update_of_ne apart _ _).trans isNode
  refine ⟨Function.update (Function.update memory node.data.block none) node.node none, ?_, ?_⟩
  · rw [Memory.destroyNodeLl, found, Option.bind_some]
    dsimp only
    rw [Memory.free, stores.isData, Option.map_some, Option.bind_some, Memory.free, kept]
    rfl
  · intro block
    simp only [Function.update_apply, HeapNode.blocks, List.mem_cons, List.not_mem_nil, or_false]
    split_ifs <;> simp_all

theorem Holds.removeNodeLl_zero (holds : list.Holds (removed :: rest)) :
    ∃ after, list.removeNodeLl 0 = some after ∧ after.Holds rest ∧
      ∀ block, after.memory block = none ↔
        list.memory block = none ∨ block ∈ removed.blocks := by
  have stores := holds.stored removed List.mem_cons_self
  have apart := ((@nodup_blocks_append_cons_iff _ _ [] rest removed).mp holds.distinct).1
  rcases stores.nodeAt with ⟨previous, found⟩
  rcases destroyNodeLl_spec stores apart with ⟨memory, destroyed, contents⟩
  refine ⟨⟨memory, list.memory.next removed.node, list.length - 1⟩, ?_, ?_, ?_⟩
  · rw [removeNodeLl, if_pos rfl, holds.chain.1]
    dsimp only
    rw [found, Option.bind_some, destroyed]
    rfl
  · apply holds.unlinkHead
    intro block notNode notData
    rw [contents, if_neg (by simp [HeapNode.blocks, notNode, notData])]
  · intro block
    dsimp only
    rw [contents]
    split_ifs with isBlock <;> simp [isBlock]

theorem Holds.removeNodeLl_succ (holds : list.Holds (front ++ node :: removed :: rest)) :
    ∃ after, list.removeNodeLl (front.length + 1) = some after ∧
      after.Holds (front ++ node :: rest) ∧
      ∀ block, after.memory block = none ↔
        list.memory block = none ∨ block ∈ removed.blocks := by
  have outer := holds.split_after
  have apart := outer.2.1 node (by simp) _ (mem_blocks_node node)
  have found := holds.iterateLl_eq
    (show front.length < (front ++ node :: removed :: rest).length by simp)
  rw [List.getElem_append_right le_rfl] at found
  simp only [Nat.sub_self, List.getElem_cons_zero] at found
  have nodeStores := holds.stored node (by simp)
  have removedStores := holds.stored removed (by simp)
  rcases nodeStores.isNode with ⟨link, previous, isNode⟩
  rcases removedStores.nodeAt with ⟨back, isRemoved⟩
  have isNext : link = some removed.node := by
    have chain := holds.chain
    rw [List.map_append, List.map_cons, List.map_cons] at chain
    have after := (segment_append_cons_iff.mp chain).2.1
    rwa [Memory.next_of_eq isNode] at after
  subst isNext
  have relinkedStores : (Memory.Stores (Function.update list.memory node.node (some (.node
      ⟨some node.data.block, list.memory.next removed.node, previous⟩))) removed) :=
    removedStores.congr (Function.update_of_ne apart.1.symm _ _)
      (Function.update_of_ne apart.2.symm _ _)
  rcases destroyNodeLl_spec relinkedStores outer.1 with ⟨memory, destroyed, contents⟩
  have notRemoved : node.node ∉ removed.blocks := by
    simp [HeapNode.blocks, apart.1, apart.2]
  refine ⟨⟨memory, list.head, list.length - 1⟩, ?_, ?_, ?_⟩
  · rw [removeNodeLl, if_neg (by omega), add_sub_cancel_right, found, Option.bind_some,
      Memory.nodeAt_of_eq isNode, Option.bind_some, isRemoved, Option.bind_some,
      setNext_eq isNode, Option.bind_some, destroyed]
    rfl
  · apply holds.unlinkAfter
    · intro block notNode notData notPlace
      rw [contents, if_neg (by simp [HeapNode.blocks, notNode, notData]),
        Function.update_of_ne notPlace]
    · refine ⟨previous, ?_⟩
      rw [contents, if_neg notRemoved, Function.update_self]
  · intro block
    dsimp only
    rw [contents]
    by_cases isBlock : block ∈ removed.blocks
    · simp [isBlock]
    · by_cases isPlace : block = node.node
      · subst isPlace
        simp [isBlock, isNode]
      · simp [isBlock, isPlace]

/-- A removal at a valid position takes out the node there and frees its two blocks. -/
theorem Holds.removeNodeLl (holds : list.Holds nodes) {index : ℕ} (within : index < nodes.length) :
    ∃ after, list.removeNodeLl index = some after ∧ after.Holds (nodes.eraseIdx index) ∧
      ∀ block, after.memory block = none ↔
        list.memory block = none ∨ block ∈ nodes[index].blocks := by
  cases index with
  | zero =>
      cases nodes with
      | nil => simp at within
      | cons removed rest => exact holds.removeNodeLl_zero
  | succ index =>
      rcases exists_split (Nat.lt_of_succ_lt within) with ⟨front, rest, split, isIndex⟩
      cases rest with
      | nil =>
          have tooShort := congrArg List.length split
          simp at tooShort
          omega
      | cons removed rest =>
          generalize nodes[index] = node at split
          subst split isIndex
          rw [eraseIdx_split]
          simpa using holds.removeNodeLl_succ

/-- On an empty list a removal at the head only counts the length down. -/
theorem Holds.removeNodeLl_empty (holds : list.Holds []) :
    list.removeNodeLl 0 = some { list with length := -1 } := by
  rw [PointerList.removeNodeLl, if_pos rfl, chain_nil_iff.mp holds.chain]
  dsimp only
  rw [holds.length]
  rfl

end Removal

end PointerList

end LetUsConnect
